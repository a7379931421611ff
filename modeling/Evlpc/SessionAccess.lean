import Evlpc.SessionRuns

/-!
# Accesses to the session table

The session id of a reply is the index at which `find_stored_session` looks for
the session. It reads the slot's magic with `operator[]`, which checks nothing,
before it copies the slot with `at`, which checks the index. Here the function is
told with the accesses it makes, in the order of the source.

The table is empty until the first session is made, and has 1000 slots then.
-/

namespace Evlpc

open Library

universe u v
variable {δ : Type u} {κ : Type v}

/-- The index of an access to `ob_sessions`, by `operator[]` or by `at`. -/
inductive SlotAccess where
  | subscript (index : Nat) : SlotAccess
  | checkedAt (index : Nat) : SlotAccess
deriving DecidableEq, Repr

/-- `at` throws for an index outside of the vector. -/
def SlotAccess.Inside (size : Nat) : SlotAccess → Prop
  | .subscript index => index < size
  | .checkedAt _ => True

/-- `find_stored_session`, with its accesses to `ob_sessions`. -/
def findStoredSessionTraced (state : SessionState δ κ) (sid magic : UInt32)
    (stray : Option UInt32) :
    List SlotAccess × Except Fault (Option (ObSessionInfo δ κ) × SessionState δ κ) :=
  match state.obSessions[sid.toNat]? with
  | some session =>
    if session.magic ≠ magic then ([.subscript sid.toNat], .ok (none, state))
    else ([.subscript sid.toNat, .checkedAt sid.toNat, .subscript sid.toNat], .ok (some session,
      { state with obSessions := state.obSessions.set sid.toNat { session with magic := 0 } }))
  | none =>
    match stray with
    | none => ([.subscript sid.toNat], .error .strayRead)
    | some storedMagic =>
      if storedMagic ≠ magic then ([.subscript sid.toNat], .ok (none, state))
      else ([.subscript sid.toNat, .checkedAt sid.toNat], .error .outOfRange)

/-- The trace is that of the function. -/
theorem findStoredSessionTraced_result (state : SessionState δ κ) (sid magic : UInt32)
    (stray : Option UInt32) :
    (findStoredSessionTraced state sid magic stray).2 =
      findStoredSession state sid magic stray := by
  cases found : state.obSessions[sid.toNat]? with
  | some session =>
    simp only [findStoredSessionTraced, findStoredSession, found]
    split <;> rfl
  | none =>
    cases stray with
    | none => simp only [findStoredSessionTraced, findStoredSession, found]
    | some storedMagic =>
      simp only [findStoredSessionTraced, findStoredSession, found]
      split <;> rfl

/-- The session id of a reply is checked before it is used: the table is only
accessed below its size, and an id that is not below it is refused. No session is
found then, no callback runs, and the lists and the table are left alone. -/
structure ChecksSid (state : SessionState δ κ) (sid magic : UInt32) (stray : Option UInt32) :
    Prop where
  inside : ∀ access ∈ (findStoredSessionTraced state sid magic stray).1,
    access.Inside state.obSessions.length
  refused : state.obSessions.length ≤ sid.toNat →
    findStoredSession state sid magic stray = .ok (none, state)
  unanswered : state.obSessions.length ≤ sid.toNat →
    answerSession state sid magic stray = .ok (none, state)

/-- The first access is the unchecked one at the id of the reply, and no later one
has another index. -/
theorem findStoredSessionTraced_accesses (state : SessionState δ κ) (sid magic : UInt32)
    (stray : Option UInt32) : ∃ later,
      (findStoredSessionTraced state sid magic stray).1 = .subscript sid.toNat :: later ∧
        ∀ index, .subscript index ∈ later → index = sid.toNat := by
  cases found : state.obSessions[sid.toNat]? with
  | some session =>
    simp only [findStoredSessionTraced, found]
    split
    · exact ⟨[], rfl, by simp⟩
    · exact ⟨[.checkedAt sid.toNat, .subscript sid.toNat], rfl, by simp⟩
  | none =>
    cases stray with
    | none => exact ⟨[], by simp only [findStoredSessionTraced, found], by simp⟩
    | some storedMagic =>
      simp only [findStoredSessionTraced, found]
      split
      · exact ⟨[], rfl, by simp⟩
      · exact ⟨[.checkedAt sid.toNat], rfl, by simp⟩

/-- In any state the check happens exactly for the ids below the table's size. -/
theorem checksSid_iff (state : SessionState δ κ) (sid magic : UInt32) (stray : Option UInt32) :
    ChecksSid state sid magic stray ↔ sid.toNat < state.obSessions.length := by
  obtain ⟨later, accesses, others⟩ := findStoredSessionTraced_accesses state sid magic stray
  constructor
  · intro checks
    exact checks.inside (.subscript sid.toNat) (accesses ▸ List.mem_cons_self)
  · intro below
    refine ⟨?_, fun outside => absurd below (Nat.not_lt.mpr outside),
      fun outside => absurd below (Nat.not_lt.mpr outside)⟩
    intro access member
    rw [accesses] at member
    cases access with
    | checkedAt index => trivial
    | subscript index =>
      rcases List.mem_cons.mp member with first | later
      · obtain rfl := SlotAccess.subscript.inj first
        exact below
      · rw [others index later]
        exact below

/-- The table has its slots once it is initialised, and is empty before. -/
def Sized (state : SessionState δ κ) : Prop :=
  state.obSessions.length = if state.inited then maxSessions else 0

/-- Taking a free id does not touch the table. -/
theorem findFreeSid_table (state found : SessionState δ κ) (sid : UInt32)
    (free : findFreeSid state = .ok (sid, found)) :
    found.inited = state.inited ∧ found.obSessions = state.obSessions := by
  obtain ⟨grown, rest, -, rfl, rfl | ⟨rfl, -, -⟩⟩ := findFreeSid_cases state found sid free
  · exact ⟨rfl, rfl⟩
  · exact ⟨rfl, rfl⟩

/-- Making a session initialises the table. -/
theorem makeNewSession_sized (state next : SessionState δ κ) (data : δ) (magic : UInt32) (cb : κ)
    (currentTimeSec sid : UInt32) (sized : Sized state)
    (made : makeNewSession state data magic cb currentTimeSec = .ok (sid, next)) :
    next.inited = true ∧ Sized next := by
  have ready : (initSessions state).inited = true ∧
      (initSessions state).obSessions.length = maxSessions := by
    unfold initSessions
    split
    case isTrue inited =>
      rw [Sized, if_pos inited] at sized
      exact ⟨inited, sized⟩
    case isFalse => exact ⟨rfl, List.length_replicate⟩
  obtain ⟨found, free, -, rfl⟩ := makeNewSession_cases state next data magic cb currentTimeSec sid
    made
  obtain ⟨inited, table⟩ := findFreeSid_table _ found sid free
  have initedNow := inited.trans ready.1
  refine ⟨initedNow, ?_⟩
  rw [Sized, if_pos initedNow, List.length_set, table, ready.2]

/-- A reply leaves the size of the table as it is. -/
theorem answerSession_sized (state next : SessionState δ κ) (sid magic : UInt32)
    (stray : Option UInt32) (called : Option (κ × Option δ))
    (answered : answerSession state sid magic stray = .ok (called, next)) :
    next.inited = state.inited ∧ next.obSessions.length = state.obSessions.length := by
  cases found : state.obSessions[sid.toNat]? with
  | none =>
    have outside := List.getElem?_eq_none_iff.mp found
    obtain ⟨-, rfl⟩ := answerSession_outside sid magic stray outside called next answered
    exact ⟨rfl, rfl⟩
  | some slot =>
    simp only [answerSession, findStoredSession_slot sid magic stray slot found] at answered
    by_cases different : slot.magic ≠ magic
    · simp only [if_pos different] at answered
      obtain ⟨-, rfl⟩ := Prod.mk.inj (Except.ok.inj answered)
      exact ⟨rfl, rfl⟩
    · simp only [if_neg different] at answered
      cases registered : slot.cb with
      | none =>
        rw [registered] at answered
        cases answered
      | some cb =>
        rw [registered] at answered
        obtain ⟨-, rfl⟩ := Prod.mk.inj (Except.ok.inj answered)
        exact ⟨rfl, List.length_set⟩

/-- The event makes a session. -/
def SessionEvent.Makes : SessionEvent δ κ → Prop
  | .make _ _ _ _ => True
  | .reply _ _ _ => False

/-- An event keeps the table sized, and it is initialised afterwards if it was
before or the event makes a session. -/
theorem ledgerMachine_sized (ledger next : Ledger δ κ) (event : SessionEvent δ κ)
    (sized : Sized ledger.sessions) (moved : ledgerMachine.step ledger event = some next) :
    Sized next.sessions ∧
      (next.sessions.inited = true ↔ ledger.sessions.inited = true ∨ event.Makes) := by
  cases event with
  | make data magic cb currentTimeSec =>
    cases made : makeNewSession ledger.sessions (ledger.created, data) magic cb currentTimeSec with
    | error fault => simp [ledgerMachine, Ledger.step, made] at moved
    | ok result =>
      obtain ⟨sid, sessions⟩ := result
      obtain ⟨inited, sizedNext⟩ := makeNewSession_sized _ sessions _ magic cb currentTimeSec sid
        sized made
      simp only [ledgerMachine, Ledger.step, made, Option.some.injEq] at moved
      subst moved
      exact ⟨sizedNext, fun _ => Or.inr trivial, fun _ => inited⟩
  | reply sid magic stray =>
    cases answered : answerSession ledger.sessions sid magic stray with
    | error fault => simp [ledgerMachine, Ledger.step, answered] at moved
    | ok result =>
      obtain ⟨called, sessions⟩ := result
      obtain ⟨inited, length⟩ := answerSession_sized _ sessions sid magic stray called answered
      have recorded : (({ ledger with sessions := sessions } : Ledger δ κ).record called).sessions =
          sessions := by
        unfold Ledger.record
        split <;> rfl
      simp only [ledgerMachine, Ledger.step, answered, Option.some.injEq] at moved
      subst moved
      rw [recorded, Sized, inited, length]
      refine ⟨sized, Or.inl, ?_⟩
      rintro (before | impossible)
      · exact before
      · exact impossible.elim

/-- In every run, the table has its size once a session has been made. -/
theorem ledgerMachine_run_sized (ledger final : Ledger δ κ) (events : List (SessionEvent δ κ))
    (sized : Sized ledger.sessions) (reached : ledgerMachine.run ledger events = some final) :
    Sized final.sessions ∧ (final.sessions.inited = true ↔
      ledger.sessions.inited = true ∨ ∃ event ∈ events, event.Makes) := by
  induction events generalizing ledger with
  | nil =>
    obtain rfl := Option.some.inj reached
    exact ⟨sized, by simp⟩
  | cons event events inductionHypothesis =>
    obtain ⟨next, moved, rest⟩ := (Machine.run_cons_some _).mp reached
    obtain ⟨sizedNext, initedNext⟩ := ledgerMachine_sized ledger next event sized moved
    obtain ⟨sizedFinal, initedFinal⟩ := inductionHypothesis next sizedNext rest
    refine ⟨sizedFinal, ?_⟩
    rw [initedFinal, initedNext]
    simp [or_assoc]

/-- After any events, the id of a reply is checked before it is used if and only if
a session has been made and the id is below 1000. -/
theorem reply_sid_checked_iff (events : List (SessionEvent δ κ)) (ledger : Ledger δ κ)
    (reached : ledgerMachine.run Ledger.start events = some ledger) (sid magic : UInt32)
    (stray : Option UInt32) :
    ChecksSid ledger.sessions sid magic stray ↔
      (∃ event ∈ events, event.Makes) ∧ sid.toNat < maxSessions := by
  obtain ⟨sized, inited⟩ := ledgerMachine_run_sized Ledger.start ledger events rfl reached
  have initially : (Ledger.start (δ := δ) (κ := κ)).sessions.inited = false := rfl
  rw [initially] at inited
  rw [checksSid_iff, sized]
  by_cases made : ∃ event ∈ events, event.Makes
  · rw [if_pos (inited.mpr (Or.inr made))]
    exact ⟨fun below => ⟨made, below⟩, fun both => both.2⟩
  · have notInited : ¬ ledger.sessions.inited = true := by
      intro now
      rcases inited.mp now with impossible | some
      · cases impossible
      · exact made some
    rw [if_neg notInited]
    exact ⟨fun below => absurd below (Nat.not_lt_zero _), fun both => absurd both.1 made⟩

/-- After two sessions, the id of a reply to the second one is checked, and the one of a
reply behind the end of the table is not. -/
theorem reply_sid_checked_once : ∃ ledger : Ledger Unit Unit,
    ledgerMachine.run Ledger.start [.make () 5 () 0, .make () 6 () 0] = some ledger ∧
      ChecksSid ledger.sessions 1 6 none ∧ ¬ ChecksSid ledger.sessions 1000 6 none := by
  have runs : (ledgerMachine.run (Ledger.start (δ := Unit) (κ := Unit))
      [.make () 5 () 0, .make () 6 () 0]).isSome = true := by
    decide +kernel
  obtain ⟨ledger, reached⟩ := Option.isSome_iff_exists.mp runs
  have checked := reply_sid_checked_iff [.make () 5 () 0, .make () 6 () 0] ledger reached
  have outside : ¬ ChecksSid ledger.sessions 1000 6 none := by
    rw [checked]
    exact fun both => absurd both.2 (by decide)
  exact ⟨ledger, reached, (checked 1 6 none).mpr ⟨⟨_, .head _, trivial⟩, by decide⟩, outside⟩

/-- A reply before the first session reads behind the end of the empty table. -/
theorem first_reply_unchecked :
    ∃ ledger : Ledger Unit Unit, ledgerMachine.run Ledger.start [] = some ledger ∧
      ¬ ChecksSid ledger.sessions 0 7 (some 1) := by
  refine ⟨Ledger.start, rfl, ?_⟩
  rw [checksSid_iff]
  exact Nat.lt_irrefl 0

end Evlpc
