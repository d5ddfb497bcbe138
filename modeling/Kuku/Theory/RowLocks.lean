/-
# Theory.RowLocks -- rows with a flag that transactions set

A table whose rows carry one flag.  A transaction that updates a row locks it until it ends; the
flag that others read is the committed one.  A lock says who holds it and whether the update sets
the flag.  `commit` sets the flags and drops the locks of a transaction, `release` only drops
them; `acquire` locks a row that no other transaction has locked.

* `Kept holder rows rows'`: what one transaction may do to the rows of a table, seen by the
  others: no row changes its id or its value, no flag is unset, and a row that another
  transaction has locked does not change.
* `Grown holder bound bound' rows rows'`: the rows are kept, and new ones come behind them whose
  ids lie between the bounds.
-/
import Mathlib

namespace Kuku.Theory

open List Option

structure RowLock where
  holder : Nat
  sets : Bool
  deriving DecidableEq

/-- `marked` is the committed flag. -/
structure LockedRow (α : Type) where
  id : Nat
  value : α
  marked : Bool := false
  lock : Option RowLock := none

namespace LockedRow

variable {α : Type}

def isHeldBy (row : LockedRow α) (holder : Nat) : Bool :=
  row.lock.any fun lock => lock.holder = holder

/-- Another transaction has locked the row. -/
def isHeldByOther (row : LockedRow α) (holder : Nat) : Bool :=
  row.lock.any fun lock => lock.holder ≠ holder

def find (rows : List (LockedRow α)) (id : Nat) : Option (LockedRow α) :=
  rows.find? fun row => row.id = id

def acquireRow (id : Nat) (lock : RowLock) (row : LockedRow α) : LockedRow α :=
  if row.id = id && !row.isHeldByOther lock.holder then { row with lock := some lock } else row

def releaseRow (holder : Nat) (row : LockedRow α) : LockedRow α :=
  if row.isHeldBy holder then { row with lock := none } else row

def commitRow (holder : Nat) (row : LockedRow α) : LockedRow α :=
  if row.isHeldBy holder then
    { row with marked := row.marked || row.lock.any RowLock.sets, lock := none }
  else row

def acquire (rows : List (LockedRow α)) (id : Nat) (lock : RowLock) : List (LockedRow α) :=
  rows.map (acquireRow id lock)

def release (rows : List (LockedRow α)) (holder : Nat) : List (LockedRow α) :=
  rows.map (releaseRow holder)

def commit (rows : List (LockedRow α)) (holder : Nat) : List (LockedRow α) :=
  rows.map (commitRow holder)

/-- What a step of `holder` does to one row. -/
structure RowKept (holder : Nat) (before after : LockedRow α) : Prop where
  id : after.id = before.id
  value : after.value = before.value
  marked : before.marked = true → after.marked = true
  others : before.isHeldByOther holder = true → after = before

theorem RowKept.refl (holder : Nat) (row : LockedRow α) : RowKept holder row row :=
  ⟨rfl, rfl, fun isMarked => isMarked, fun _ => rfl⟩

def Kept (holder : Nat) (rows rows' : List (LockedRow α)) : Prop :=
  ∃ update : LockedRow α → LockedRow α,
    (∀ row, RowKept holder row (update row)) ∧ rows' = rows.map update

variable {rows rows' : List (LockedRow α)} {row before after : LockedRow α} {holder id : Nat}

theorem Kept.refl (holder : Nat) (rows : List (LockedRow α)) : Kept holder rows rows :=
  ⟨fun row => row, RowKept.refl holder, (map_id' rows).symm⟩

theorem Kept.mem (kept : Kept holder rows rows') (among : after ∈ rows') :
    ∃ before ∈ rows, RowKept holder before after := by
  obtain ⟨update, keeps, rfl⟩ := kept
  obtain ⟨before, wasAmong, rfl⟩ := List.mem_map.mp among
  exact ⟨before, wasAmong, keeps before⟩

theorem find_eq (found : find rows id = some row) : row ∈ rows ∧ row.id = id :=
  ⟨mem_of_find?_eq_some found, by simpa using find?_some found⟩

theorem find_map {update : LockedRow α → LockedRow α} (ids : ∀ row, (update row).id = row.id) :
    find (rows.map update) id = (find rows id).map update := by
  simp only [find, find?_map, Function.comp_def, ids]

theorem not_heldByOther_of_heldBy (isHeld : row.isHeldBy holder = true) :
    row.isHeldByOther holder = false := by
  unfold isHeldBy at isHeld
  unfold isHeldByOther
  cases held : row.lock with
  | none => rfl
  | some lock =>
    rw [held] at isHeld
    simpa using isHeld

/-! ## What one transaction does, seen by the others -/

theorem rowKept_acquire {sets : Bool} (row : LockedRow α) :
    RowKept holder row (acquireRow id ⟨holder, sets⟩ row) := by
  unfold acquireRow
  split
  · rename_i isFree
    simp only [Bool.and_eq_true, Bool.not_eq_true'] at isFree
    exact ⟨rfl, rfl, fun isMarked => isMarked, fun isOther => by simp [isFree.2] at isOther⟩
  · exact .refl holder row

theorem rowKept_release (row : LockedRow α) : RowKept holder row (releaseRow holder row) := by
  unfold releaseRow
  split
  · rename_i isHeld
    have notOther := not_heldByOther_of_heldBy isHeld
    exact ⟨rfl, rfl, fun isMarked => isMarked, fun isOther => by simp [notOther] at isOther⟩
  · exact .refl holder row

theorem rowKept_commit (holder : Nat) (row : LockedRow α) : RowKept holder row (commitRow holder row) := by
  unfold commitRow
  split
  · rename_i isHeld
    have notOther := not_heldByOther_of_heldBy isHeld
    exact ⟨rfl, rfl, fun isMarked => by simp [isMarked],
      fun isOther => by simp [notOther] at isOther⟩
  · exact .refl holder row

theorem kept_acquire {sets : Bool} : Kept holder rows (acquire rows id ⟨holder, sets⟩) :=
  ⟨_, rowKept_acquire, rfl⟩

theorem kept_release (holder : Nat) : Kept holder rows (release rows holder) := ⟨_, rowKept_release, rfl⟩

theorem kept_commit (holder : Nat) : Kept holder rows (commit rows holder) := ⟨_, rowKept_commit holder, rfl⟩

theorem marked_commitRow (isHeld : row.lock = some ⟨holder, true⟩) :
    (commitRow holder row).marked = true := by
  simp [commitRow, isHeldBy, isHeld]

theorem find_commit : find (commit rows holder) id = (find rows id).map (commitRow holder) :=
  find_map fun row => (rowKept_commit holder row).id

theorem find_acquire {sets : Bool} (found : find rows id = some row)
    (isFree : row.isHeldByOther holder = false) :
    find (acquire rows id ⟨holder, sets⟩) id = some { row with lock := some ⟨holder, sets⟩ } := by
  have mapped : find (acquire rows id ⟨holder, sets⟩) id = (find rows id).map _ :=
    find_map fun row => (rowKept_acquire row).id
  rw [mapped, found]
  simp [acquireRow, (find_eq found).2, isFree]

/-! ## Tables that grow -/

theorem find_append (found : find rows id = some row) : find (rows ++ rows') id = some row := by
  unfold find at found ⊢
  rw [find?_append, found]
  rfl

structure Grown (holder bound bound' : Nat) (rows rows' : List (LockedRow α)) : Prop where
  grows : bound ≤ bound'
  rows : ∃ kept added, Kept holder rows kept ∧ rows' = kept ++ added ∧
    ∀ row ∈ added, bound ≤ row.id ∧ row.id < bound'

section Grown

variable {bound bound' : Nat}

theorem Kept.grown (kept : Kept holder rows rows') (grows : bound ≤ bound') :
    Grown holder bound bound' rows rows' :=
  ⟨grows, rows', [], kept, (append_nil _).symm, fun _ among => nomatch among⟩

/-- One new row, with the next id. -/
theorem Kept.append (kept : Kept holder rows rows') (isNew : row.id = bound) :
    Grown holder bound (bound + 1) rows (rows' ++ [row]) := by
  refine ⟨Nat.le_succ _, rows', [row], kept, rfl, ?_⟩
  intro other among
  rw [mem_singleton.mp among, isNew]
  exact ⟨Nat.le_refl _, Nat.lt_succ_self _⟩

variable (grown : Grown holder bound bound' rows rows')

include grown

theorem Grown.mem (among : after ∈ rows') :
    (∃ before ∈ rows, RowKept holder before after) ∨ bound ≤ after.id ∧ after.id < bound' := by
  obtain ⟨-, kept, added, isKept, rfl, isNew⟩ := grown
  rcases mem_append.mp among with old | new
  · exact .inl (isKept.mem old)
  · exact .inr (isNew after new)

theorem Grown.below (below : ∀ row ∈ rows, row.id < bound) : ∀ row ∈ rows', row.id < bound' := by
  intro after among
  rcases grown.mem among with ⟨before, wasAmong, kept⟩ | ⟨-, isBelow⟩
  · rw [kept.id]
    exact Nat.lt_of_lt_of_le (below before wasAmong) grown.grows
  · exact isBelow

theorem Grown.find (found : LockedRow.find rows id = some before) :
    ∃ after, LockedRow.find rows' id = some after ∧ RowKept holder before after := by
  obtain ⟨-, kept, added, ⟨update, keeps, rfl⟩, rfl, -⟩ := grown
  refine ⟨update before, find_append ?_, keeps before⟩
  rw [find_map fun row => (keeps row).id, found]
  rfl

theorem Grown.found (isOld : id < bound) (found : LockedRow.find rows' id = some after) :
    ∃ before, LockedRow.find rows id = some before ∧ RowKept holder before after := by
  obtain ⟨-, kept, added, ⟨update, keeps, rfl⟩, rfl, isNew⟩ := grown
  have mapped : LockedRow.find (rows.map update) id = (LockedRow.find rows id).map update :=
    find_map fun row => (keeps row).id
  have notNew : added.find? (fun row => row.id = id) = none := by
    rw [find?_eq_none]
    intro row among isRow
    have atLeast := (isNew row among).1
    rw [of_decide_eq_true isRow] at atLeast
    exact absurd isOld (Nat.not_lt.mpr atLeast)
  unfold LockedRow.find at found mapped
  rw [find?_append, notNew, or_none, mapped] at found
  obtain ⟨before, isBefore, rfl⟩ := map_eq_some_iff.mp found
  exact ⟨before, isBefore, keeps before⟩

end Grown

end LockedRow

end Kuku.Theory
