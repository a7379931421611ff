import Mathlib.Data.List.Nodup
import Mathlib.Data.List.Perm.Basic

/-!
# Pools of identifiers

A pool keeps its identifiers in two lists, the free ones and the used ones.
Identifiers are taken from the front of the free list and given back at its end.
As long as only used identifiers are given back, the two lists together hold the
pool's identifiers exactly once each, in some order.

Records whose keys differ are removed by their keys; any others are removed or
replaced at their positions. Each is a statement about lists up to order.
-/

namespace Evlpc.Library

universe u v
variable {α : Type u}

/-- Of records with different keys, dropping a key drops one record. -/
theorem perm_cons_filter {β : Type v} [DecidableEq β] (key : α → β) (records : List α) (record : α)
    (member : record ∈ records) (distinct : (records.map key).Nodup) :
    records.Perm (record :: records.filter (key · != key record)) := by
  obtain ⟨before, after, rfl⟩ := List.append_of_mem member
  rw [List.map_append, List.map_cons] at distinct
  have others : ∀ other ∈ before ++ after, (key other != key record) = true := by
    intro other isOther
    rw [bne_iff_ne]
    intro same
    have unique := (List.nodup_middle.mp distinct)
    rw [← List.map_append, List.nodup_cons] at unique
    exact unique.1 (List.mem_map.mpr ⟨other, isOther, same⟩)
  have kept : (before ++ record :: after).filter (key · != key record) = before ++ after := by
    rw [List.filter_append, List.filter_cons_of_neg (by simp), ← List.filter_append,
      List.filter_eq_self.mpr others]
  rw [kept]
  exact List.perm_middle

/-- A list is the record at a position and the others. -/
theorem perm_cons_eraseIdx (records : List α) (index : Nat) (record : α)
    (found : records[index]? = some record) :
    records.Perm (record :: records.eraseIdx index) := by
  obtain ⟨inside, rfl⟩ := List.getElem?_eq_some_iff.mp found
  exact (List.getElem_cons_eraseIdx_perm inside).symm

/-- Every record owns a list. Replacing one record replaces its list by that of
the other, up to order. -/
theorem flatMap_set_perm {β : Type v} (owned : α → List β) (records : List α) (index : Nat)
    (record other : α) (found : records[index]? = some record) :
    (owned record ++ (records.set index other).flatMap owned).Perm
      (owned other ++ records.flatMap owned) := by
  obtain ⟨inside, _⟩ := List.getElem?_eq_some_iff.mp found
  have before : (records.flatMap owned).Perm
      (owned record ++ (records.eraseIdx index).flatMap owned) :=
    List.Perm.flatMap_right owned (perm_cons_eraseIdx records index record found)
  have after : ((records.set index other).flatMap owned).Perm
      (owned other ++ (records.eraseIdx index).flatMap owned) :=
    List.Perm.flatMap_right owned (List.set_perm_cons_eraseIdx inside other)
  have swapped : (owned record ++ (owned other ++ (records.eraseIdx index).flatMap owned)).Perm
      (owned other ++ (owned record ++ (records.eraseIdx index).flatMap owned)) := by
    rw [← List.append_assoc, ← List.append_assoc]
    exact List.Perm.append_right _ List.perm_append_comm
  exact (List.Perm.append_left _ after).trans (swapped.trans (List.Perm.append_left _ before.symm))

/-- The free and the used identifiers. -/
structure Pool (α : Type u) where
  free : List α
  used : List α

namespace Pool

/-- Both lists together are a rearrangement of the given identifiers. -/
def Holds (pool : Pool α) (ids : List α) : Prop := (pool.free ++ pool.used).Perm ids

/-- Add new free identifiers at the end. -/
def grow (pool : Pool α) (ids : List α) : Pool α := { pool with free := pool.free ++ ids }

/-- Move an identifier back to the free ones, wherever it is in the used list. -/
def giveBack [DecidableEq α] (pool : Pool α) (id : α) : Pool α where
  free := pool.free ++ [id]
  used := pool.used.filter (· != id)

/-- New ids are free ones. -/
theorem grow_holds (pool : Pool α) (ids new : List α) (holds : pool.Holds ids) :
    (pool.grow new).Holds (ids ++ new) := by
  have moved : (pool.free ++ new ++ pool.used).Perm (pool.free ++ pool.used ++ new) := by
    rw [List.append_assoc, List.append_assoc]
    exact List.Perm.append_left _ List.perm_append_comm
  exact moved.trans (List.Perm.append_right _ holds)

/-- Taking the first free identifier keeps the pool complete. -/
theorem take_holds (id : α) (free used ids : List α)
    (holds : (Pool.mk (id :: free) used).Holds ids) :
    (Pool.mk free (used ++ [id])).Holds ids := by
  have moved : (free ++ (used ++ [id])).Perm (id :: free ++ used) := by
    rw [← List.append_assoc]
    exact List.perm_append_singleton id (free ++ used)
  exact moved.trans holds

/-- A free identifier is not used. -/
theorem take_fresh (id : α) (free used ids : List α) (holds : (Pool.mk (id :: free) used).Holds ids)
    (nodup : ids.Nodup) : id ∉ used := by
  intro member
  have distinct : (id :: (free ++ used)).Nodup := (List.Perm.nodup_iff holds).mpr nodup
  exact (List.nodup_cons.mp distinct).1 (List.mem_append_right _ member)

/-- No id is in use twice. -/
theorem used_nodup (pool : Pool α) (ids : List α) (holds : pool.Holds ids) (nodup : ids.Nodup) :
    pool.used.Nodup :=
  ((List.Perm.nodup_iff holds).mpr nodup).of_append_right

/-- Giving back a used identifier keeps the pool complete. -/
theorem giveBack_holds [DecidableEq α] (pool : Pool α) (ids : List α) (id : α)
    (holds : pool.Holds ids) (nodup : ids.Nodup) (used : id ∈ pool.used) :
    (pool.giveBack id).Holds ids := by
  have restored : (id :: pool.used.filter (· != id)).Perm pool.used :=
    (perm_cons_filter (fun other => other) pool.used id used
      (by simpa using pool.used_nodup ids holds nodup)).symm
  have moved : (pool.free ++ [id] ++ pool.used.filter (· != id)).Perm (pool.free ++ pool.used) := by
    rw [List.append_assoc]
    exact List.Perm.append_left _ restored
  exact moved.trans holds

/-- Identifiers are taken from the front of a line. One that is not among the first of
the line is taken after them. -/
theorem taken_after (front behind taken later : List α) (id : α) (absent : id ∉ front)
    (line : taken ++ id :: later = front ++ behind) : front <+: taken := by
  rcases List.append_eq_append_iff.mp line with ⟨missing, whole, rest⟩ | ⟨others, whole, _⟩
  · cases missing with
    | nil =>
      have same : front = taken := whole.trans (List.append_nil taken)
      exact same ▸ List.prefix_rfl
    | cons next missing =>
      obtain ⟨rfl, -⟩ := List.cons.inj rest
      exact absurd (whole ▸ List.mem_append_right _ List.mem_cons_self) absent
  · exact whole ▸ List.prefix_append _ _

end Pool

end Evlpc.Library
