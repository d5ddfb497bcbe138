/-
# Theory.Assoc -- a finite map as a list of its entries

A directory, or a map that is written to a file: `get` finds the first entry of a key,
`set` puts one in front of what is left without that key, `restrict` keeps the entries
whose key is kept.  A key is looked up, so entries behind another with their key are
never seen, and no lemma asks for their absence.
-/
import Kuku.Theory.Text

namespace Kuku.Theory

open List Option

/-- The entries of a finite map. -/
abbrev Assoc (κ α : Type) := List (κ × α)

namespace Assoc

variable {κ α : Type}

def restrict (keep : κ → Bool) (entries : Assoc κ α) : Assoc κ α :=
  entries.filter fun entry => keep entry.1

variable [DecidableEq κ]

def get (entries : Assoc κ α) (key : κ) : Option α :=
  (entries.find? fun entry => entry.1 = key).map Prod.snd

def remove (entries : Assoc κ α) (key : κ) : Assoc κ α :=
  restrict (fun other => other ≠ key) entries

def set (entries : Assoc κ α) (key : κ) (value : α) : Assoc κ α :=
  (key, value) :: remove entries key

variable {entries : Assoc κ α} {key other : κ} {value : α} {keep : κ → Bool}

@[simp] theorem get_nil : get ([] : Assoc κ α) key = none := rfl

theorem get_cons : get ((other, value) :: entries) key =
    if other = key then some value else get entries key := by
  by_cases same : other = key <;> simp [get, same]

theorem mem_of_get (found : get entries key = some value) : (key, value) ∈ entries := by
  simp only [get, map_eq_some_iff] at found
  obtain ⟨⟨first, held⟩, isFound, rfl⟩ := found
  have isKey := find?_some isFound
  simp only [decide_eq_true_eq] at isKey
  exact isKey ▸ mem_of_find?_eq_some isFound

theorem get_eq_none (absent : key ∉ entries.map Prod.fst) : get entries key = none := by
  rw [get, map_eq_none_iff, find?_eq_none]
  intro entry among isKey
  exact absent (of_decide_eq_true isKey ▸ List.mem_map_of_mem among)

@[simp] theorem get_restrict :
    get (restrict keep entries) key = if keep key then get entries key else none := by
  induction entries with
  | nil => simp [restrict]
  | cons entry rest ih =>
    obtain ⟨first, held⟩ := entry
    by_cases kept : keep first = true
    · have isCons : restrict keep ((first, held) :: rest) =
          (first, held) :: restrict keep rest := by simp [restrict, kept]
      rw [isCons, get_cons, get_cons, ih]
      by_cases same : first = key
      · subst same
        simp [kept]
      · simp [same]
    · have isRest : restrict keep ((first, held) :: rest) = restrict keep rest := by
        simp [restrict, kept]
      rw [isRest, ih, get_cons]
      by_cases same : first = key
      · subst same
        simp [kept]
      · simp [same]

@[simp] theorem get_remove_self : get (remove entries key) key = none := by
  simp [remove]

theorem get_remove_of_ne (differs : other ≠ key) :
    get (remove entries key) other = get entries other := by
  simp [remove, differs]

@[simp] theorem get_set_self : get (set entries key value) key = some value := by
  simp [set, get_cons]

theorem get_set_of_ne (differs : other ≠ key) :
    get (set entries key value) other = get entries other := by
  rw [set, get_cons, if_neg (Ne.symm differs), get_remove_of_ne differs]

theorem get_append {more : Assoc κ α} :
    get (entries ++ more) key = (get entries key).or (get more key) := by
  rw [get, find?_append, map_or]
  rfl

/-! ## The keys -/

theorem mem_keys : key ∈ entries.map Prod.fst ↔ (get entries key).isSome := by
  constructor
  · intro among
    by_contra absent
    rw [not_isSome_iff_eq_none] at absent
    obtain ⟨entry, isEntry, rfl⟩ := List.mem_map.mp among
    rw [get, map_eq_none_iff, find?_eq_none] at absent
    exact absent entry isEntry (decide_eq_true rfl)
  · intro found
    obtain ⟨held, isHeld⟩ := isSome_iff_exists.mp found
    exact List.mem_map_of_mem (mem_of_get isHeld)

theorem keys_remove :
    (remove entries key).map Prod.fst = (entries.map Prod.fst).filter fun other => other ≠ key := by
  rw [List.filter_map]
  rfl

theorem nodup_remove (distinct : (entries.map Prod.fst).Nodup) :
    ((remove entries key).map Prod.fst).Nodup := by
  rw [keys_remove]
  exact distinct.filter _

theorem nodup_set (distinct : (entries.map Prod.fst).Nodup) :
    ((set entries key value).map Prod.fst).Nodup := by
  have absent : key ∉ (remove entries key).map Prod.fst := by
    rw [keys_remove, mem_filter]
    exact fun again => of_decide_eq_true again.2 rfl
  exact nodup_cons.mpr ⟨absent, nodup_remove distinct⟩

/-! ## What holds of every entry -/

section Every

variable {P Q : κ → α → Prop}

def Every (P : κ → α → Prop) (entries : Assoc κ α) : Prop := ∀ entry ∈ entries, P entry.1 entry.2

omit [DecidableEq κ] in
@[simp] theorem every_nil : Every P ([] : Assoc κ α) := fun _ among => nomatch among

theorem Every.get (every : Every P entries) (found : Assoc.get entries key = some value) :
    P key value :=
  every _ (mem_of_get found)

theorem Every.remove (every : Every P entries)
    (weaker : ∀ other held, other ≠ key → P other held → Q other held) :
    Every Q (Assoc.remove entries key) := by
  intro entry among
  obtain ⟨isEntry, differs⟩ := mem_filter.mp among
  exact weaker entry.1 entry.2 (of_decide_eq_true differs) (every entry isEntry)

theorem Every.set (every : Every P entries)
    (weaker : ∀ other held, other ≠ key → P other held → Q other held) (holds : Q key value) :
    Every Q (Assoc.set entries key value) := by
  intro entry among
  rcases mem_cons.mp among with rfl | earlier
  · exact holds
  · exact every.remove weaker entry earlier

end Every

end Assoc

end Kuku.Theory
