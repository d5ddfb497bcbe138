/-
# Theory.Store -- a finite map that keeps its keys in order, and one whose writes are merged

A map of a browser program keeps the order in which its keys came: `put` writes an entry where
it stands, or behind the others.  A reactive store *merges* a record that is written over
another (`merge`): it writes the keys of the new one and leaves the others as they are, so a
record without a key does not take the key away (`merge_remove`).
-/
import Kuku.Theory.Assoc

namespace Kuku.Theory

open List

namespace Assoc

variable {κ α : Type} [DecidableEq κ]

/-- Write a value: where its key stands, or behind the others. -/
@[grind =] def put : Assoc κ α → κ → α → Assoc κ α
  | [], key, value => [(key, value)]
  | entry :: rest, key, value =>
    if entry.1 = key then (key, value) :: rest else entry :: put rest key value

/-- Write the entries of another map, one by one. -/
def merge (entries next : Assoc κ α) : Assoc κ α :=
  next.foldl (fun merged entry => merged.put entry.1 entry.2) entries

variable {entries next : Assoc κ α} {key other : κ} {value : α}

@[simp] theorem get_put_self : get (put entries key value) key = some value := by
  induction entries with
  | nil => simp [put, get_cons]
  | cons entry rest ih =>
    rw [put]
    split_ifs with isKey
    · rw [get_cons, if_pos rfl]
    · rw [get_cons, if_neg isKey, ih]

theorem get_put_of_ne (differs : other ≠ key) : get (put entries key value) other = get entries other := by
  induction entries with
  | nil => simp [put, get_cons, Ne.symm differs]
  | cons entry rest ih =>
    rw [put]
    split_ifs with isKey
    · rw [get_cons, get_cons, if_neg (Ne.symm differs), if_neg (isKey ▸ Ne.symm differs)]
    · rw [get_cons, get_cons, ih]

theorem get_put : get (put entries key value) other =
    if other = key then some value else get entries other := by
  split_ifs with isKey
  · rw [isKey, get_put_self]
  · exact get_put_of_ne isKey

theorem get_remove : get (remove entries key) other =
    if other = key then none else get entries other := by
  split_ifs with isKey
  · rw [isKey, get_remove_self]
  · exact get_remove_of_ne isKey

/-- A value that is there is written over itself. -/
theorem put_get (held : get entries key = some value) : put entries key value = entries := by
  induction entries with
  | nil => cases held
  | cons entry rest ih =>
    rw [get_cons] at held
    rw [put]
    split_ifs at held ⊢ with isKey
    · cases held
      rw [← isKey]
    · rw [ih held]

theorem get_of_mem (distinct : (entries.map Prod.fst).Nodup) (among : (key, value) ∈ entries) :
    get entries key = some value := by
  induction entries with
  | nil => cases among
  | cons entry rest ih =>
    rw [map_cons, nodup_cons] at distinct
    rw [get_cons]
    rcases mem_cons.mp among with isFirst | later
    · rw [← isFirst, if_pos rfl]
    · rw [if_neg, ih distinct.2 later]
      exact fun isKey => distinct.1 (isKey ▸ mem_map_of_mem later)

/-- The order of the entries does not matter to a map. -/
theorem get_of_perm {others : Assoc κ α} (distinct : (entries.map Prod.fst).Nodup)
    (perm : others.Perm entries) (key : κ) : get others key = get entries key := by
  have distinctOthers : (others.map Prod.fst).Nodup := (perm.map Prod.fst).nodup_iff.mpr distinct
  cases found : get entries key with
  | some value => exact get_of_mem distinctOthers (perm.mem_iff.mpr (mem_of_get found))
  | none =>
    cases isOther : get others key with
    | none => rfl
    | some value =>
      have held := get_of_mem distinct (perm.mem_iff.mp (mem_of_get isOther))
      exact nomatch found.symm.trans held

theorem keys_put_subset {used : κ} (among : used ∈ (put entries key value).map Prod.fst) :
    used = key ∨ used ∈ entries.map Prod.fst := by
  rw [mem_keys, get_put] at among
  rw [mem_keys]
  split_ifs at among with isKey
  · exact .inl isKey
  · exact .inr among

theorem nodup_put (distinct : (entries.map Prod.fst).Nodup) :
    ((put entries key value).map Prod.fst).Nodup := by
  induction entries with
  | nil => exact nodup_singleton _
  | cons entry rest ih =>
    rw [map_cons, nodup_cons] at distinct
    rw [put]
    split_ifs with isKey
    · rw [map_cons, nodup_cons]
      exact ⟨isKey ▸ distinct.1, distinct.2⟩
    · rw [map_cons, nodup_cons]
      exact ⟨fun among => (keys_put_subset among).elim isKey distinct.1, ih distinct.2⟩

/-- Merging entries that are there already changes nothing. -/
theorem merge_of_held (held : ∀ entry ∈ next, get entries entry.1 = some entry.2) :
    merge entries next = entries := by
  induction next with
  | nil => rfl
  | cons entry rest ih =>
    rw [merge, foldl_cons, put_get (held entry mem_cons_self)]
    exact ih fun later among => held later (mem_cons_of_mem _ among)

theorem get_merge_of_not_mem (absent : key ∉ next.map Prod.fst) :
    get (merge entries next) key = get entries key := by
  induction next generalizing entries with
  | nil => rfl
  | cons entry rest ih =>
    rw [map_cons, mem_cons, not_or] at absent
    rw [merge, foldl_cons]
    exact (ih absent.2).trans (get_put_of_ne absent.1)

theorem get_merge_of_mem (distinct : (next.map Prod.fst).Nodup) (among : (key, value) ∈ next) :
    get (merge entries next) key = some value := by
  induction next generalizing entries with
  | nil => cases among
  | cons entry rest ih =>
    rw [map_cons, nodup_cons] at distinct
    rw [merge, foldl_cons]
    rcases mem_cons.mp among with rfl | later
    · exact (get_merge_of_not_mem distinct.1).trans get_put_self
    · exact ih distinct.2 later

/-- **A key is not taken away by merging the record without it.** -/
theorem merge_remove (distinct : (entries.map Prod.fst).Nodup) (key : κ) :
    merge entries (remove entries key) = entries :=
  merge_of_held fun _ among => get_of_mem distinct (mem_of_mem_filter among)

end Assoc

end Kuku.Theory
