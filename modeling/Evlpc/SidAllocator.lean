import Evlpc.Session
import Evlpc.Library.Machine

/-!
# The allocation of session ids

`find_free_sid` takes the first id of the free list, which `create_free_sids` fills
with ten more when it is empty, and puts it at the end of the used list. `return_sid`
removes an id from the used list and puts it at the end of the free list.

A history of such calls records the ids that were issued, in their order, and how
many were used at once at most. The issued ids followed by the free list form a line
that only grows: an id is issued when its turn comes, and a returned id joins at the
end.
-/

namespace Evlpc

open Library

universe u v
variable {δ : Type u} {κ : Type v}

/-- `find_free_sid`, and `return_sid` of an id. -/
inductive SidCall where
  | findFreeSid : SidCall
  | returnSid (sid : UInt32) : SidCall

/-- The lists after a number of calls, the ids that these issued, and the largest
number of ids in use at once. -/
structure SidHistory (δ : Type u) (κ : Type v) where
  sessions : SessionState δ κ
  issued : List UInt32
  mostUsed : Nat

/-- No call has been made, and the lists are empty. -/
def SidHistory.start : SidHistory δ κ := ⟨SessionState.start, [], 0⟩

/-- A call leaves these lists and has issued these ids. -/
def SidHistory.record (history : SidHistory δ κ) (sessions : SessionState δ κ)
    (sids : List UInt32) : SidHistory δ κ where
  sessions := sessions
  issued := history.issued ++ sids
  mostUsed := max history.mostUsed sessions.usedList.length

/-- The calls. An id is returned if it is in use, and there is no new id once the counter
would wrap around. -/
def sidMachine : Machine (SidHistory δ κ) SidCall where
  step history call :=
    match call with
    | .findFreeSid =>
      match findFreeSid history.sessions with
      | .ok (sid, found) => some (history.record found [sid])
      | .error _ => none
    | .returnSid sid =>
      if sid ∈ history.sessions.usedList then
        some (history.record (returnSid history.sessions sid) [])
      else none

/-- The two lists share the ids below the maximum. -/
structure Partitioned (state : SessionState δ κ) : Prop where
  freeOnce : state.freeList.Nodup
  usedOnce : state.usedList.Nodup
  apart : state.freeList.Disjoint state.usedList
  together : ∀ sid, sid ∈ state.freeList ∨ sid ∈ state.usedList ↔
    sid.toNat < state.currentMaxSid.toNat

/-- Every id that is found was not in use, and one is found as long as there is a free
one or the counter can grow. -/
structure FindsFresh (state : SessionState δ κ) : Prop where
  fresh : ∀ sid found, findFreeSid state = .ok (sid, found) → sid ∉ state.usedList
  finds : state.freeList ≠ [] ∨ state.currentMaxSid.toNat + 10 < 4294967296 →
    ∃ sid found, findFreeSid state = .ok (sid, found)

/-- An id that is returned is issued again only after all ids that are free then. -/
def FirstComeFirstServed (history : SidHistory δ κ) : Prop :=
  ∀ sid calls final first rest, sid ∈ history.sessions.usedList →
    sidMachine.run history (.returnSid sid :: calls) = some final →
    final.issued = history.issued ++ (first ++ sid :: rest) →
    ∀ free ∈ history.sessions.freeList, free ∈ first

/-- The maximum is at most the number of ids in use at once, rounded up to tens. -/
def BoundedGrowth (history : SidHistory δ κ) : Prop :=
  history.sessions.currentMaxSid.toNat ≤ 10 * ((history.mostUsed + 9) / 10)

/-- The allocator partitions its range and recycles it in order. -/
structure Recycles (history : SidHistory δ κ) : Prop where
  partitioned : Partitioned history.sessions
  finds : FindsFresh history.sessions
  growth : BoundedGrowth history
  order : FirstComeFirstServed history

/-- What a call does: an id is found and issued, or one in use is returned. -/
theorem sidMachine_step (history next : SidHistory δ κ) (call : SidCall)
    (moved : sidMachine.step history call = some next) :
    (∃ sid found, findFreeSid history.sessions = .ok (sid, found) ∧
      next = history.record found [sid]) ∨
    ∃ sid, call = .returnSid sid ∧ sid ∈ history.sessions.usedList ∧
      next = history.record (returnSid history.sessions sid) [] := by
  cases call with
  | findFreeSid =>
    simp only [sidMachine] at moved
    split at moved
    · rename_i sid found free
      exact Or.inl ⟨sid, found, free, (Option.some.inj moved).symm⟩
    · cases moved
  | returnSid sid =>
    simp only [sidMachine] at moved
    split at moved
    case isTrue used => exact Or.inr ⟨sid, rfl, used, (Option.some.inj moved).symm⟩
    case isFalse => cases moved

section Lists

variable (state : SessionState δ κ)

/-- The lists hold every id below the maximum once. -/
structure SidLists (state : SessionState δ κ) : Prop where
  pool : state.pool.Holds (sidRange 0 state.currentMaxSid)
  tens : 10 ∣ state.currentMaxSid.toNat

/-- Ten new ids go into the free list. -/
theorem createFreeSids_lists (lists : SidLists state)
    (grows : (state.currentMaxSid + 10).toNat = state.currentMaxSid.toNat + 10) :
    SidLists (createFreeSids state) := by
  refine ⟨createFreeSids_pool state grows lists.pool, ?_⟩
  change 10 ∣ (state.currentMaxSid + 10).toNat
  rw [grows]
  exact Nat.dvd_add lists.tens (Nat.dvd_refl 10)

/-- Finding an id moves it from one list to the other. -/
theorem findFreeSid_lists (lists : SidLists state) (sid : UInt32) (found : SessionState δ κ)
    (free : findFreeSid state = .ok (sid, found)) : SidLists found ∧ sid ∉ state.usedList := by
  obtain ⟨grown, rest, list, rfl, source⟩ := findFreeSid_cases state found sid free
  have ready : SidLists grown ∧ grown.usedList = state.usedList := by
    rcases source with rfl | ⟨rfl, -, grows⟩
    · exact ⟨lists, rfl⟩
    · exact ⟨createFreeSids_lists state lists grows, rfl⟩
  have pool : (Pool.mk (sid :: rest) grown.usedList).Holds (sidRange 0 grown.currentMaxSid) := by
    rw [← list]
    exact ready.1.pool
  refine ⟨⟨Pool.take_holds sid rest _ _ pool, ready.1.tens⟩, ?_⟩
  rw [← ready.2]
  exact Pool.take_fresh sid rest _ _ pool (sidRange_nodup _)

/-- A used id goes back to the free list. -/
theorem returnSid_lists (lists : SidLists state) (sid : UInt32) (used : sid ∈ state.usedList) :
    SidLists (returnSid state sid) :=
  ⟨state.pool.giveBack_holds _ sid lists.pool (sidRange_nodup _) used, lists.tens⟩

/-- As many ids are free or in use as there are below the maximum. -/
theorem sidLists_counted (lists : SidLists state) :
    state.freeList.length + state.usedList.length = state.currentMaxSid.toNat := by
  have zero : (0 : UInt32).toNat = 0 := rfl
  have total := List.Perm.length_eq lists.pool
  rw [List.length_append, sidRange_length, zero, Nat.sub_zero] at total
  exact total

/-- Every id made so far is in one of the lists, once. -/
theorem sidLists_partitioned (lists : SidLists state) : Partitioned state := by
  have distinct : (state.freeList ++ state.usedList).Nodup :=
    (List.Perm.nodup_iff lists.pool).mpr (sidRange_nodup _)
  obtain ⟨freeOnce, usedOnce, apart⟩ := List.nodup_append'.mp distinct
  refine ⟨freeOnce, usedOnce, apart, ?_⟩
  intro sid
  rw [← List.mem_append, ← sidRange_mem]
  exact lists.pool.mem_iff

/-- A search finds an id that is not in use, as long as there is room for more ids. -/
theorem sidLists_finds (lists : SidLists state) : FindsFresh state := by
  refine ⟨fun sid found free => (findFreeSid_lists state lists sid found free).2, ?_⟩
  intro room
  unfold findFreeSid
  dsimp only
  split
  case h_1 empty =>
    by_cases none : state.freeList.length ≤ 0
    · rw [if_pos none, createFreeSids] at empty
      rcases room with present | below
      · exact absurd (List.length_eq_zero_iff.mp (by omega)) present
      · have grows : (state.currentMaxSid + 10).toNat =
            (state.currentMaxSid.toNat + 10) % 4294967296 := UInt32.toNat_add _ _
        have created := congrArg List.length empty
        rw [List.length_append, sidRange_length, List.length_nil] at created
        omega
    · rw [if_neg none] at empty
      rw [empty, List.length_nil] at none
      omega
  case h_2 sid rest list => exact ⟨sid, _, rfl⟩

end Lists

/-- The ids issued so far and those that are free, in the order of their turns. -/
def SidHistory.line (history : SidHistory δ κ) : List UInt32 :=
  history.issued ++ history.sessions.freeList

/-- A call appends to the line. -/
theorem sidMachine_line (history next : SidHistory δ κ) (call : SidCall)
    (moved : sidMachine.step history call = some next) : history.line <+: next.line := by
  rcases sidMachine_step history next call moved with ⟨sid, found, free, rfl⟩ | ⟨sid, -, -, rfl⟩
  · obtain ⟨grown, rest, list, rfl, source⟩ := findFreeSid_cases history.sessions found sid free
    have turn : (history.record { grown with
        freeList := rest, usedList := grown.usedList ++ [sid] } [sid]).line =
        history.issued ++ grown.freeList := by
      rw [list]
      exact List.append_assoc _ _ _
    rw [turn]
    rcases source with rfl | ⟨rfl, -, -⟩
    · exact List.prefix_rfl
    · exact List.prefix_append_right_inj _ |>.mpr (List.prefix_append _ _)
  · refine ⟨[sid], ?_⟩
    rw [SidHistory.line, SidHistory.line, SidHistory.record, List.append_nil, List.append_assoc]
    rfl

/-- What holds after any calls: the lists are complete, and the maximum has grown with
the ids in use only. -/
structure SidHistory.Sound (history : SidHistory δ κ) : Prop where
  lists : SidLists history.sessions
  counted : history.sessions.usedList.length ≤ history.mostUsed
  growth : BoundedGrowth history

/-- At the start no ids have been made. -/
theorem sidStart_sound : (SidHistory.start (δ := δ) (κ := κ)).Sound where
  lists := ⟨List.Perm.refl _, ⟨0, rfl⟩⟩
  counted := Nat.le_refl 0
  growth := Nat.zero_le _

/-- A found id is counted. The maximum has grown only if all ids below it were in use. -/
theorem findFreeSid_growth (history : SidHistory δ κ) (sound : history.Sound) (sid : UInt32)
    (found : SessionState δ κ) (free : findFreeSid history.sessions = .ok (sid, found)) :
    BoundedGrowth (history.record found [sid]) := by
  have growth := sound.growth
  have counted := sidLists_counted history.sessions sound.lists
  obtain ⟨tens, count⟩ := sound.lists.tens
  obtain ⟨grown, rest, list, rfl, source⟩ := findFreeSid_cases history.sessions found sid free
  rw [BoundedGrowth, SidHistory.record]
  rw [BoundedGrowth] at growth
  simp only
  rcases source with rfl | ⟨rfl, empty, grows⟩
  · omega
  · have used : ((createFreeSids history.sessions).usedList ++ [sid]).length =
        history.sessions.usedList.length + 1 := by
      rw [List.length_append]
      rfl
    have maximum : (createFreeSids history.sessions).currentMaxSid.toNat =
        history.sessions.currentMaxSid.toNat + 10 := grows
    rw [empty, List.length_nil] at counted
    rw [used, maximum]
    omega

/-- Every call keeps the lists in order. -/
theorem sidMachine_sound (history next : SidHistory δ κ) (call : SidCall) (sound : history.Sound)
    (moved : sidMachine.step history call = some next) : next.Sound := by
  rcases sidMachine_step history next call moved with ⟨sid, found, free, rfl⟩ | ⟨sid, -, used, rfl⟩
  · exact {
      lists := (findFreeSid_lists history.sessions sound.lists sid found free).1
      counted := Nat.le_max_right _ _
      growth := findFreeSid_growth history sound sid found free }
  · refine ⟨returnSid_lists history.sessions sound.lists sid used, Nat.le_max_right _ _, ?_⟩
    have growth := sound.growth
    rw [BoundedGrowth] at growth
    rw [BoundedGrowth, SidHistory.record]
    change history.sessions.currentMaxSid.toNat ≤ _
    simp only
    omega

/-- The line of a later history begins with that of an earlier one. -/
theorem sidMachine_run_line (history final : SidHistory δ κ) (calls : List SidCall)
    (reached : sidMachine.run history calls = some final) : history.line <+: final.line := by
  apply sidMachine.run_invariant (fun later => history.line <+: later.line) _ history final calls
    List.prefix_rfl reached
  intro middle call next line moved
  exact line.trans (sidMachine_line middle next call moved)

/-- A returned id joins the line behind all free ones, so that it is issued after them. -/
theorem returned_in_turn (history : SidHistory δ κ) (lists : SidLists history.sessions) :
    FirstComeFirstServed history := by
  intro sid calls final first rest used continued issued other isFree
  obtain ⟨next, moved, later⟩ := (sidMachine.run_cons_some).mp continued
  simp only [sidMachine, if_pos used, Option.some.injEq] at moved
  obtain ⟨more, line⟩ := sidMachine_run_line next final calls later
  have absent : sid ∉ history.sessions.freeList := fun member =>
    (sidLists_partitioned history.sessions lists).apart member used
  have turns : first ++ sid :: (rest ++ final.sessions.freeList) =
      history.sessions.freeList ++ (sid :: more) := by
    rw [← moved, SidHistory.line, SidHistory.line, issued, SidHistory.record, returnSid] at line
    simp only [List.append_nil, List.append_assoc, List.append_cancel_left_eq] at line
    exact line.symm
  have before : history.sessions.freeList <+: first :=
    Pool.taken_after _ _ _ _ sid absent turns
  exact before.subset isFree

/-- After any calls of `find_free_sid`, and of `return_sid` with ids in use, the two
lists share the ids below the maximum, ids are issued in turn and fresh, and the maximum
has grown with their use only. -/
theorem allocator_recycles (calls : List SidCall) (history : SidHistory δ κ)
    (reached : sidMachine.run SidHistory.start calls = some history) : Recycles history := by
  have sound : history.Sound := sidMachine.run_invariant SidHistory.Sound
    (fun earlier call next sound moved => sidMachine_sound earlier next call sound moved)
    SidHistory.start history calls sidStart_sound reached
  exact {
    partitioned := sidLists_partitioned history.sessions sound.lists
    finds := sidLists_finds history.sessions sound.lists
    growth := sound.growth
    order := returned_in_turn history sound.lists }

/-- Two ids are found and the first of them is returned; the third call finds the next
one. -/
theorem allocator_recycles_three :
    let calls := [SidCall.findFreeSid, .findFreeSid, .returnSid 0, .findFreeSid]
    let history : SidHistory Unit Unit :=
      ⟨⟨false, [3, 4, 5, 6, 7, 8, 9, 0], [1, 2], 10, []⟩, [0, 1, 2], 2⟩
    sidMachine.run SidHistory.start calls = some history ∧ Recycles history :=
  ⟨rfl, allocator_recycles [.findFreeSid, .findFreeSid, .returnSid 0, .findFreeSid] _ rfl⟩

end Evlpc
