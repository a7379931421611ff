import Evlpc.PbCommon
import Evlpc.Library.Pool

/-!
# Outbound sessions

`make_new_session` takes a session id from a free list, which grows by ten ids
whenever it is empty, and stores the session in a vector of 1000 slots.
`find_stored_session` accepts a reply whose magic is the slot's, and marks the
slot by setting its magic to 0. `return_sid` puts the id back.

Neither the slot's index nor the id given back is checked in the source. An
access outside of the vector is undefined there; here it is a fault, unless it
is the unchecked read of a magic, whose result the environment chooses.
-/

namespace Evlpc

open Library

universe u v
variable {δ : Type u} {κ : Type v}

/-- `MAX_SESSIONS`, the size `ob_sessions` is given. -/
def maxSessions : Nat := 1000

/-- What ends the process or has no defined effect. -/
inductive Fault where
  | emptyFreeList
  | strayStore
  | strayRead
  | outOfRange
  | nullCallback
deriving DecidableEq, Repr

/-- `ObSessionInfo_t`; `none` stands for a null pointer. -/
structure ObSessionInfo (δ : Type u) (κ : Type v) where
  obSid : UInt32
  inboundSessionPresent : Bool
  ibSid : UInt32
  startTime : UInt32
  magic : UInt32
  data : Option δ
  cb : Option κ

/-- The value `resize` gives a new slot. -/
def unusedSlot : ObSessionInfo δ κ where
  obSid := 0
  inboundSessionPresent := false
  ibSid := 0
  startTime := 0
  magic := 0
  data := none
  cb := none

/-- The variables of `session.cpp` that hold outbound sessions. -/
structure SessionState (δ : Type u) (κ : Type v) where
  inited : Bool
  freeList : List UInt32
  usedList : List UInt32
  currentMaxSid : UInt32
  obSessions : List (ObSessionInfo δ κ)

/-- Their values when the process starts. -/
def SessionState.start : SessionState δ κ where
  inited := false
  freeList := []
  usedList := []
  currentMaxSid := 0
  obSessions := []

/-- The ids that the loop of `create_free_sids` counts through. -/
def sidRange (first last : UInt32) : List UInt32 :=
  (List.range (last.toNat - first.toNat)).map fun offset => first + UInt32.ofNat offset

/-- `create_free_sids`. -/
def createFreeSids (state : SessionState δ κ) : SessionState δ κ :=
  let newMaxSid := state.currentMaxSid + 10
  { state with
    freeList := state.freeList ++ sidRange state.currentMaxSid newMaxSid
    currentMaxSid := newMaxSid }

/-- `find_free_sid`. -/
def findFreeSid (state : SessionState δ κ) : Except Fault (UInt32 × SessionState δ κ) :=
  let grown := if state.freeList.length ≤ 0 then createFreeSids state else state
  match grown.freeList with
  | [] => .error .emptyFreeList
  | sid :: rest => .ok (sid, { grown with freeList := rest, usedList := grown.usedList ++ [sid] })

/-- `return_sid`. -/
def returnSid (state : SessionState δ κ) (sid : UInt32) : SessionState δ κ :=
  { state with usedList := state.usedList.filter (· != sid), freeList := state.freeList ++ [sid] }

/-- The first part of `make_new_session`. -/
def initSessions (state : SessionState δ κ) : SessionState δ κ :=
  if state.inited then state
  else { state with
    inited := true
    freeList := []
    usedList := []
    obSessions := List.replicate maxSessions unusedSlot }

/-- `make_new_session`, at the time the clock shows. -/
def makeNewSession (state : SessionState δ κ) (data : δ) (magic : UInt32) (cb : κ)
    (currentTimeSec : UInt32) : Except Fault (UInt32 × SessionState δ κ) :=
  match findFreeSid (initSessions state) with
  | .error fault => .error fault
  | .ok (sid, found) =>
    let session := ⟨sid, false, 0, currentTimeSec, magic, some data, some cb⟩
    if sid.toNat < found.obSessions.length then
      .ok (sid, { found with obSessions := found.obSessions.set sid.toNat session })
    else .error .strayStore

/-- `find_stored_session`; no session stands for the result -2. `stray` is what
the read of a magic outside of the vector yields, if it yields anything. -/
def findStoredSession (state : SessionState δ κ) (sid magic : UInt32) (stray : Option UInt32) :
    Except Fault (Option (ObSessionInfo δ κ) × SessionState δ κ) :=
  match state.obSessions[sid.toNat]? with
  | some session =>
    if session.magic ≠ magic then .ok (none, state)
    else .ok (some session,
      { state with obSessions := state.obSessions.set sid.toNat { session with magic := 0 } })
  | none =>
    match stray with
    | none => .error .strayRead
    | some storedMagic => if storedMagic ≠ magic then .ok (none, state) else .error .outOfRange

/-- What `handle_std_reply` does with the session table: the callback it runs, if
any, with the data it passes. The callback itself does not use the table. -/
def answerSession (state : SessionState δ κ) (sid magic : UInt32) (stray : Option UInt32) :
    Except Fault (Option (κ × Option δ) × SessionState δ κ) :=
  match findStoredSession state sid magic stray with
  | .error fault => .error fault
  | .ok (none, found) => .ok (none, found)
  | .ok (some session, found) =>
    match session.cb with
    | none => .error .nullCallback
    | some cb => .ok (some (cb, session.data), returnSid found sid)

/-- A session as its maker knows it. -/
structure ObSession (δ : Type u) (κ : Type v) where
  sid : UInt32
  magic : UInt32
  data : δ
  cb : κ

/-- The pool of the two lists. -/
def SessionState.pool (state : SessionState δ κ) : Pool UInt32 := ⟨state.freeList, state.usedList⟩

/-- The table agrees with a list of outstanding sessions: their ids are the used
ones, their slots hold them, every other slot is marked by the magic 0, and the
ids handed out so far fit the table. -/
structure Consistent (state : SessionState δ κ) (outstanding : List (ObSession δ κ)) : Prop where
  pool : state.pool.Holds (sidRange 0 state.currentMaxSid)
  used : state.usedList.Perm (outstanding.map ObSession.sid)
  tens : 10 ∣ state.currentMaxSid.toNat
  bounded : state.currentMaxSid.toNat ≤ maxSessions
  size : state.obSessions.length = if state.inited then maxSessions else 0
  fresh : state.inited = false → state.currentMaxSid = 0
  stored : ∀ session ∈ outstanding, ∃ slot, state.obSessions[session.sid.toNat]? = some slot ∧
    slot.magic = session.magic ∧ slot.data = some session.data ∧ slot.cb = some session.cb
  marked : ∀ sid slot, state.obSessions[sid.toNat]? = some slot →
    (∀ session ∈ outstanding, session.sid ≠ sid) → slot.magic = 0

/-- At the start no sessions are outstanding. -/
theorem start_consistent : Consistent (SessionState.start (δ := δ) (κ := κ)) [] where
  pool := List.Perm.refl _
  used := List.Perm.refl _
  tens := ⟨0, rfl⟩
  bounded := Nat.zero_le _
  size := rfl
  fresh := fun _ => rfl
  stored := by simp
  marked := by simp [SessionState.start]

/-- No id is counted twice. -/
theorem sidRange_nodup (last : UInt32) : (sidRange 0 last).Nodup := by
  apply List.Nodup.map_on _ List.nodup_range
  intro left leftBound right rightBound same
  have word := last.toNat_lt
  rw [List.mem_range] at leftBound rightBound
  simp only [UInt32.zero_add] at same
  have values := congrArg UInt32.toNat same
  rwa [UInt32.toNat_ofNat_of_lt' (by change left < 4294967296; omega),
    UInt32.toNat_ofNat_of_lt' (by change right < 4294967296; omega)] at values

/-- As many ids are counted as there are from the first to the last. -/
theorem sidRange_length (first last : UInt32) :
    (sidRange first last).length = last.toNat - first.toNat := by
  rw [sidRange, List.length_map, List.length_range]

/-- The ids below a new maximum are those below the old one and the new ones. -/
theorem sidRange_grow (middle last : UInt32) (above : middle.toNat ≤ last.toNat) :
    sidRange 0 last = sidRange 0 middle ++ sidRange middle last := by
  have zero : (0 : UInt32).toNat = 0 := rfl
  have count : last.toNat - 0 = middle.toNat - 0 + (last.toNat - middle.toNat) := by omega
  rw [sidRange, sidRange, sidRange, zero, count, List.range_add, List.map_append, List.map_map]
  congr 1
  apply List.map_congr_left
  intro offset _
  simp

/-- The ids below a maximum. -/
theorem sidRange_mem (sid last : UInt32) : sid ∈ sidRange 0 last ↔ sid.toNat < last.toNat := by
  have zero : (0 : UInt32).toNat = 0 := rfl
  have word := last.toNat_lt
  rw [sidRange, List.mem_map, zero, Nat.sub_zero]
  constructor
  · rintro ⟨offset, below, rfl⟩
    rw [List.mem_range] at below
    rwa [UInt32.zero_add, UInt32.toNat_ofNat_of_lt' (by change offset < 4294967296; omega)]
  · intro below
    refine ⟨sid.toNat, List.mem_range.mpr below, ?_⟩
    rw [UInt32.zero_add, UInt32.ofNat_toNat]

/-- What finding a free id comes to: the first id of the free list is moved. If the list
was empty, ten more had been created, and the counter has not wrapped around. -/
theorem findFreeSid_cases (state found : SessionState δ κ) (sid : UInt32)
    (free : findFreeSid state = .ok (sid, found)) :
    ∃ grown rest, grown.freeList = sid :: rest ∧
      found = { grown with freeList := rest, usedList := grown.usedList ++ [sid] } ∧
      (grown = state ∨ grown = createFreeSids state ∧ state.freeList = [] ∧
        (state.currentMaxSid + 10).toNat = state.currentMaxSid.toNat + 10) := by
  unfold findFreeSid at free
  dsimp only at free
  split at free
  · cases free
  · rename_i next rest list
    obtain ⟨rfl, rfl⟩ := Prod.mk.inj (Except.ok.inj free)
    refine ⟨_, rest, list, rfl, ?_⟩
    by_cases empty : state.freeList.length ≤ 0
    · right
      have none : state.freeList = [] := List.length_eq_zero_iff.mp (by omega)
      rw [if_pos empty, createFreeSids, none, List.nil_append] at list
      have created := congrArg List.length list
      have word := state.currentMaxSid.toNat_lt
      have sum : (state.currentMaxSid + 10).toNat =
          (state.currentMaxSid.toNat + 10) % 4294967296 := UInt32.toNat_add _ _
      rw [sidRange_length, List.length_cons] at created
      exact ⟨if_pos empty, none, by omega⟩
    · exact Or.inl (if_neg empty)

/-- What making a session comes to: a free id is found, and its slot is stored. -/
theorem makeNewSession_cases (state next : SessionState δ κ) (data : δ) (magic : UInt32) (cb : κ)
    (currentTimeSec sid : UInt32)
    (made : makeNewSession state data magic cb currentTimeSec = .ok (sid, next)) :
    ∃ found, findFreeSid (initSessions state) = .ok (sid, found) ∧
      sid.toNat < found.obSessions.length ∧
      next = { found with
        obSessions := found.obSessions.set sid.toNat
          ⟨sid, false, 0, currentTimeSec, magic, some data, some cb⟩ } := by
  unfold makeNewSession at made
  split at made
  · cases made
  · rename_i other found free
    dsimp only at made
    split at made
    · rename_i below
      obtain ⟨rfl, rfl⟩ := Prod.mk.inj (Except.ok.inj made)
      exact ⟨found, free, below, rfl⟩
    · cases made

/-- Ten more ids keep the pool complete, unless the counter wraps around. -/
theorem createFreeSids_pool (state : SessionState δ κ)
    (grows : (state.currentMaxSid + 10).toNat = state.currentMaxSid.toNat + 10)
    (pool : state.pool.Holds (sidRange 0 state.currentMaxSid)) :
    (createFreeSids state).pool.Holds (sidRange 0 (createFreeSids state).currentMaxSid) := by
  have grown := state.pool.grow_holds _ (sidRange state.currentMaxSid (state.currentMaxSid + 10))
    pool
  rw [← sidRange_grow state.currentMaxSid _ (by omega)] at grown
  exact grown

namespace Consistent

variable {state : SessionState δ κ} {outstanding : List (ObSession δ κ)}

/-- Agreement does not depend on the order of the sessions. -/
theorem perm {other : List (ObSession δ κ)} (consistent : Consistent state outstanding)
    (same : outstanding.Perm other) : Consistent state other :=
  { consistent with
    used := consistent.used.trans (same.map _)
    stored := fun session member => consistent.stored session (same.mem_iff.mpr member)
    marked := fun sid slot found unused => consistent.marked sid slot found
      fun session member => unused session (same.mem_iff.mp member) }

/-- Outstanding sessions have different ids. -/
theorem sids_nodup (consistent : Consistent state outstanding) :
    (outstanding.map ObSession.sid).Nodup :=
  (List.Perm.nodup_iff consistent.used).mp
    (state.pool.used_nodup _ consistent.pool (sidRange_nodup _))

/-- The lists hold as many ids as were created. -/
theorem counted (consistent : Consistent state outstanding) :
    state.freeList.length + outstanding.length = state.currentMaxSid.toNat := by
  have total := List.Perm.length_eq consistent.pool
  have used := List.Perm.length_eq consistent.used
  have zero : (0 : UInt32).toNat = 0 := rfl
  have free : state.pool.free = state.freeList := rfl
  have busy : state.pool.used = state.usedList := rfl
  rw [List.length_append, sidRange_length, zero, free, busy] at total
  rw [List.length_map] at used
  omega

/-- An id that exists is an index of the table. -/
theorem sid_bound (consistent : Consistent state outstanding) (sid : UInt32)
    (created : sid ∈ state.freeList ++ state.usedList) : sid.toNat < maxSessions := by
  have bounded := consistent.bounded
  have most : maxSessions = 1000 := rfl
  have below := (sidRange_mem sid _).mp (consistent.pool.mem_iff.mp created)
  omega

/-- Not more sessions are outstanding than the table has slots. -/
theorem outstanding_bound (consistent : Consistent state outstanding) :
    outstanding.length ≤ maxSessions := by
  have counted := consistent.counted
  have bounded := consistent.bounded
  omega

end Consistent

/-- Different ids are different indices. -/
theorem index_ne {sid other : UInt32} (different : other ≠ sid) : sid.toNat ≠ other.toNat :=
  fun same => different (UInt32.toNat_inj.mp same).symm

section Making

variable {state : SessionState δ κ} {outstanding : List (ObSession δ κ)}

/-- The first call finds empty lists and sizes the table; a later one changes
nothing. -/
theorem initSessions_consistent (consistent : Consistent state outstanding) :
    Consistent (initSessions state) outstanding ∧ (initSessions state).inited = true := by
  cases inited : state.inited with
  | true =>
    have same : initSessions state = state := if_pos inited
    rw [same]
    exact ⟨consistent, inited⟩
  | false =>
    have none := consistent.fresh inited
    have counted := consistent.counted
    have used := consistent.used.length_eq
    rw [none] at counted
    have zero : (0 : UInt32).toNat = 0 := rfl
    rw [List.length_map] at used
    obtain rfl : outstanding = [] := List.length_eq_zero_iff.mp (by omega)
    have first : initSessions state =
        ⟨true, [], [], state.currentMaxSid, List.replicate maxSessions unusedSlot⟩ := by
      rw [initSessions, inited]
      rfl
    rw [first]
    refine ⟨⟨?_, List.Perm.refl _, consistent.tens, consistent.bounded, by simp, by simp, by simp,
      ?_⟩, rfl⟩
    · rw [none]
      exact List.Perm.refl _
    · intro sid slot found _
      have member := List.mem_of_getElem? found
      rw [List.eq_of_mem_replicate member]
      rfl

/-- Ten more ids are created as long as they are indices of the table. -/
theorem createFreeSids_consistent (consistent : Consistent state outstanding)
    (inited : state.inited = true) (room : state.currentMaxSid.toNat < maxSessions) :
    Consistent (createFreeSids state) outstanding := by
  have most : maxSessions = 1000 := rfl
  obtain ⟨tens, count⟩ := consistent.tens
  have grown : (state.currentMaxSid + 10).toNat = state.currentMaxSid.toNat + 10 := by
    rw [UInt32.toNat_add]
    have ten : (10 : UInt32).toNat = 10 := rfl
    omega
  refine ⟨createFreeSids_pool state grown consistent.pool, consistent.used, ?_, ?_, consistent.size,
    ?_, consistent.stored, consistent.marked⟩
  · change 10 ∣ (state.currentMaxSid + 10).toNat
    rw [grown]
    exact ⟨tens + 1, by omega⟩
  · change (state.currentMaxSid + 10).toNat ≤ maxSessions
    omega
  · intro notInited
    exact absurd (inited.symm.trans notInited) (by decide)

/-- Taking the first free id and storing a session in its slot. The slot was
marked unused, and no other slot is touched. -/
theorem stored_consistent (consistent : Consistent state outstanding) (inited : state.inited = true)
    (sid : UInt32) (rest : List UInt32) (free : state.freeList = sid :: rest) (data : δ)
    (magic : UInt32) (cb : κ) (currentTimeSec : UInt32) :
    sid.toNat < state.obSessions.length ∧ sid ∉ outstanding.map ObSession.sid ∧
      Consistent { state with
          freeList := rest
          usedList := state.usedList ++ [sid]
          obSessions := state.obSessions.set sid.toNat
            ⟨sid, false, 0, currentTimeSec, magic, some data, some cb⟩ }
        (⟨sid, magic, data, cb⟩ :: outstanding) := by
  have size : state.obSessions.length = maxSessions := by
    rw [consistent.size, inited, if_pos rfl]
  have bound : sid.toNat < maxSessions := consistent.sid_bound sid (by simp [free])
  have pool : (Pool.mk (sid :: rest) state.usedList).Holds (sidRange 0 state.currentMaxSid) := by
    rw [← free]
    exact consistent.pool
  have unused : sid ∉ state.usedList := Pool.take_fresh sid rest _ _ pool (sidRange_nodup _)
  have fresh : sid ∉ outstanding.map ObSession.sid :=
    fun member => unused (consistent.used.mem_iff.mpr member)
  refine ⟨by omega, fresh, ?_⟩
  exact {
    pool := Pool.take_holds sid rest _ _ pool
    used := (List.perm_append_singleton sid state.usedList).trans (consistent.used.cons sid)
    tens := consistent.tens
    bounded := consistent.bounded
    size := by simp [consistent.size]
    fresh := consistent.fresh
    stored := by
      intro session member
      rcases List.mem_cons.mp member with rfl | member
      · exact ⟨_, List.getElem?_set_self (by omega), rfl, rfl, rfl⟩
      · have different : session.sid ≠ sid :=
          fun same => fresh (List.mem_map.mpr ⟨session, member, same⟩)
        simp only [List.getElem?_set_ne (index_ne different)]
        exact consistent.stored session member
    marked := by
      intro other slot found others
      have different : other ≠ sid := fun same => others _ List.mem_cons_self same.symm
      simp only [List.getElem?_set_ne (index_ne different)] at found
      exact consistent.marked other slot found
        fun session member => others session (List.mem_cons_of_mem _ member) }

/-- With fewer than 1000 sessions outstanding there is a free id, if need be after
creating ten more. -/
theorem findFreeSid_room (consistent : Consistent state outstanding) (inited : state.inited = true)
    (room : outstanding.length < maxSessions) :
    ∃ grown sid rest, Consistent grown outstanding ∧ grown.inited = true ∧
      grown.freeList = sid :: rest ∧
      findFreeSid state =
        .ok (sid, { grown with freeList := rest, usedList := grown.usedList ++ [sid] }) := by
  have counted := consistent.counted
  have most : maxSessions = 1000 := rfl
  cases free : state.freeList with
  | cons sid rest => exact ⟨state, sid, rest, consistent, inited, free, by simp [findFreeSid, free]⟩
  | nil =>
    rw [free, List.length_nil] at counted
    have grown := createFreeSids_consistent consistent inited (by omega)
    have total := grown.counted
    have newMax : (createFreeSids state).currentMaxSid.toNat = state.currentMaxSid.toNat + 10 := by
      change (state.currentMaxSid + 10).toNat = _
      have ten : (10 : UInt32).toNat = 10 := rfl
      rw [UInt32.toNat_add]
      omega
    obtain ⟨sid, rest, created⟩ : ∃ sid rest, (createFreeSids state).freeList = sid :: rest := by
      apply List.exists_cons_of_ne_nil
      intro none
      rw [none, List.length_nil] at total
      omega
    exact ⟨createFreeSids state, sid, rest, grown, inited, created,
      by simp [findFreeSid, free, created]⟩

/-- With fewer than 1000 sessions outstanding a new one gets an index of the
table that none of them has, and the table agrees with all of them. -/
theorem makeNewSession_room (consistent : Consistent state outstanding)
    (room : outstanding.length < maxSessions) (data : δ) (magic : UInt32) (cb : κ)
    (currentTimeSec : UInt32) :
    ∃ sid next, makeNewSession state data magic cb currentTimeSec = .ok (sid, next) ∧
      sid.toNat < next.obSessions.length ∧ sid ∉ outstanding.map ObSession.sid ∧
      Consistent next (⟨sid, magic, data, cb⟩ :: outstanding) := by
  obtain ⟨ready, inited⟩ := initSessions_consistent consistent
  obtain ⟨grown, sid, rest, consistentGrown, initedGrown, free, found⟩ :=
    findFreeSid_room ready inited room
  obtain ⟨bound, fresh, result⟩ := stored_consistent consistentGrown initedGrown sid rest free data
    magic cb currentTimeSec
  refine ⟨sid, _, ?_, ?_, fresh, result⟩
  · rw [makeNewSession, found]
    exact if_pos bound
  · rw [List.length_set]
    exact bound

/-- With 1000 sessions outstanding the free list is empty and the next ids start
at 1000, behind the table. -/
theorem makeNewSession_full (consistent : Consistent state outstanding)
    (full : outstanding.length = maxSessions) (data : δ) (magic : UInt32) (cb : κ)
    (currentTimeSec : UInt32) :
    makeNewSession state data magic cb currentTimeSec = .error .strayStore := by
  have most : maxSessions = 1000 := rfl
  obtain ⟨ready, inited⟩ := initSessions_consistent consistent
  have counted := ready.counted
  have bounded := ready.bounded
  have empty : (initSessions state).freeList = [] := List.length_eq_zero_iff.mp (by omega)
  have maximum : (initSessions state).currentMaxSid = 1000 := by
    apply UInt32.toNat_inj.mp
    change _ = 1000
    omega
  have found : ∃ next, findFreeSid (initSessions state) = .ok (1000, next) ∧
      next.obSessions = (initSessions state).obSessions := by
    rw [findFreeSid, if_pos (by rw [empty]; exact Nat.le_refl 0), createFreeSids, empty, maximum]
    exact ⟨_, rfl, rfl⟩
  obtain ⟨next, found, same⟩ := found
  rw [makeNewSession, found]
  simp only
  rw [same, ready.size, inited]
  rfl

end Making

section Answering

variable {state : SessionState δ κ} {outstanding : List (ObSession δ κ)}

/-- Inside the table the slot decides. -/
theorem findStoredSession_slot (sid magic : UInt32) (stray : Option UInt32)
    (slot : ObSessionInfo δ κ) (found : state.obSessions[sid.toNat]? = some slot) :
    findStoredSession state sid magic stray =
      if slot.magic ≠ magic then .ok (none, state)
      else .ok (some slot,
        { state with obSessions := state.obSessions.set sid.toNat { slot with magic := 0 } }) := by
  simp only [findStoredSession, found]

/-- Marking the slot of an outstanding session and giving its id back leaves the
table in agreement with the remaining sessions. -/
theorem returned_consistent (session : ObSession δ κ) (rest : List (ObSession δ κ))
    (consistent : Consistent state (session :: rest)) (slot : ObSessionInfo δ κ) :
    Consistent (returnSid { state with
      obSessions := state.obSessions.set session.sid.toNat { slot with magic := 0 } } session.sid)
      rest := by
  have distinct := consistent.sids_nodup
  rw [List.map_cons, List.nodup_cons] at distinct
  have isUsed : session.sid ∈ state.usedList := consistent.used.mem_iff.mpr (by simp)
  have usedNodup : state.usedList.Nodup :=
    state.pool.used_nodup _ consistent.pool (sidRange_nodup _)
  obtain ⟨_, found, _⟩ := consistent.stored session List.mem_cons_self
  obtain ⟨inTable, _⟩ := List.getElem?_eq_some_iff.mp found
  exact {
    pool := state.pool.giveBack_holds _ session.sid consistent.pool (sidRange_nodup _) isUsed
    used := by
      change (state.usedList.filter (· != session.sid)).Perm _
      rw [← usedNodup.erase_eq_filter]
      have erased := consistent.used.erase session.sid
      rwa [List.map_cons, List.erase_cons_head] at erased
    tens := consistent.tens
    bounded := consistent.bounded
    size := by
      change (state.obSessions.set _ _).length = _
      rw [List.length_set]
      exact consistent.size
    fresh := consistent.fresh
    stored := by
      intro other member
      have different : other.sid ≠ session.sid :=
        fun same => distinct.1 (List.mem_map.mpr ⟨other, member, same⟩)
      simp only [returnSid, List.getElem?_set_ne (index_ne different)]
      exact consistent.stored other (List.mem_cons_of_mem _ member)
    marked := by
      intro sid other foundOther others
      by_cases same : sid = session.sid
      · subst same
        simp only [returnSid, List.getElem?_set_self inTable, Option.some.injEq] at foundOther
        rw [← foundOther]
      · simp only [returnSid, List.getElem?_set_ne (index_ne same)] at foundOther
        apply consistent.marked sid other foundOther
        intro session' member
        rcases List.mem_cons.mp member with rfl | member
        · exact fun equal => same equal.symm
        · exact others session' member }

/-- A reply with the id and magic of an outstanding session runs its callback
with its data, and the table agrees with the remaining sessions. -/
theorem answerSession_outstanding (consistent : Consistent state outstanding)
    (session : ObSession δ κ) (rest : List (ObSession δ κ))
    (present : outstanding.Perm (session :: rest)) (stray : Option UInt32) :
    ∃ next, answerSession state session.sid session.magic stray =
        .ok (some (session.cb, some session.data), next) ∧ Consistent next rest := by
  have reordered := consistent.perm present
  obtain ⟨slot, found, magic, data, cb⟩ := reordered.stored session List.mem_cons_self
  refine ⟨_, ?_, returned_consistent session rest reordered slot⟩
  rw [answerSession, findStoredSession_slot _ _ _ slot found, if_neg (not_not.mpr magic)]
  simp only [cb, data]

/-- The magic a slot of the table holds: that of the outstanding session with its
id, or 0. -/
theorem slot_magic (consistent : Consistent state outstanding) (sid : UInt32)
    (inTable : sid.toNat < state.obSessions.length) :
    ∃ slot, state.obSessions[sid.toNat]? = some slot ∧
      ((∃ session ∈ outstanding, session.sid = sid ∧ session.magic = slot.magic) ∨
        ((∀ session ∈ outstanding, session.sid ≠ sid) ∧ slot.magic = 0)) := by
  have found : state.obSessions[sid.toNat]? = some state.obSessions[sid.toNat] :=
    List.getElem?_eq_getElem inTable
  refine ⟨_, found, ?_⟩
  by_cases present : ∃ session ∈ outstanding, session.sid = sid
  · obtain ⟨session, member, rfl⟩ := present
    obtain ⟨slot, foundSlot, magic, _⟩ := consistent.stored session member
    rw [found] at foundSlot
    obtain rfl := Option.some.inj foundSlot
    exact Or.inl ⟨session, member, rfl, magic.symm⟩
  · have others : ∀ session ∈ outstanding, session.sid ≠ sid :=
      fun session member same => present ⟨session, member, same⟩
    exact Or.inr ⟨others, consistent.marked sid _ found others⟩

/-- A reply in the table's range that matches no outstanding session is ignored,
unless its magic is 0 and no outstanding session has its id. -/
theorem answerSession_ignored (consistent : Consistent state outstanding) (sid magic : UInt32)
    (stray : Option UInt32) (inTable : sid.toNat < state.obSessions.length)
    (unmatched : ∀ session ∈ outstanding, ¬ (session.sid = sid ∧ session.magic = magic))
    (unforged : magic = 0 → ∃ session ∈ outstanding, session.sid = sid) :
    answerSession state sid magic stray = .ok (none, state) := by
  obtain ⟨slot, found, held⟩ := slot_magic consistent sid inTable
  have different : slot.magic ≠ magic := by
    rcases held with ⟨session, member, same, magicSame⟩ | ⟨others, zero⟩
    · exact fun equal => unmatched session member ⟨same, magicSame.trans equal⟩
    · intro equal
      obtain ⟨session, member, same⟩ := unforged (equal.symm.trans zero)
      exact others session member same
  rw [answerSession, findStoredSession_slot _ _ _ slot found, if_pos different]

/-- A reply with magic 0 for an unoccupied slot is never ignored: it runs the
callback left in the slot and frees the id once more, or fails on a null one. -/
theorem answerSession_forged (consistent : Consistent state outstanding) (sid : UInt32)
    (stray : Option UInt32) (inTable : sid.toNat < state.obSessions.length)
    (unoccupied : ∀ session ∈ outstanding, session.sid ≠ sid) :
    answerSession state sid 0 stray ≠ .ok (none, state) := by
  obtain ⟨slot, found, held⟩ := slot_magic consistent sid inTable
  have zero : slot.magic = 0 := by
    rcases held with ⟨session, member, same, _⟩ | ⟨_, zero⟩
    · exact absurd same (unoccupied session member)
    · exact zero
  rw [answerSession, findStoredSession_slot _ _ _ slot found, if_neg (not_not.mpr zero)]
  cases callback : slot.cb with
  | none => simp [callback]
  | some cb => simp [callback]

/-- A reply outside of the table's range either changes nothing or is a fault. -/
theorem answerSession_outside (sid magic : UInt32) (stray : Option UInt32)
    (outside : state.obSessions.length ≤ sid.toNat) (result : Option (κ × Option δ))
    (next : SessionState δ κ)
    (answered : answerSession state sid magic stray = .ok (result, next)) :
    result = none ∧ next = state := by
  have missing : state.obSessions[sid.toNat]? = none := List.getElem?_eq_none outside
  simp only [answerSession, findStoredSession, missing] at answered
  cases stray with
  | none => cases answered
  | some storedMagic =>
    by_cases different : storedMagic ≠ magic
    · simp only [if_pos different] at answered
      obtain ⟨rfl, rfl⟩ := Prod.mk.inj (Except.ok.inj answered)
      exact ⟨rfl, rfl⟩
    · simp only [if_neg different] at answered
      cases answered

end Answering

end Evlpc
