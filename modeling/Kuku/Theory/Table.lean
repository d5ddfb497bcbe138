/-
# Theory.Table -- rows with a primary key

A table is a list of rows, each with a key; `Keyed` says that no key occurs twice.
`get` finds a row by its key, `put` writes a row version over the row with its key
or adds it, and `total` sums an integer of every row, as `SUM` does.

The lemmas say what a `put` does to each: to the row with its key, to every other
row, to a column (`map_put`) and to a sum (`total_put`).
-/
import Mathlib

namespace Kuku.Theory.Table

open List Function Option

variable {α κ : Type} (key : α → κ)

/-- No key occurs twice. -/
def Keyed (rows : List α) : Prop := (rows.map key).Nodup

/-- A page of a table (selected, sorted, limited) repeats no row. -/
theorem keyed_page {key : α → κ} {rows : List α} {p : α → Bool} {le : α → α → Prop} [DecidableRel le] {n : Nat}
    (keyed : Keyed key rows) :
    Keyed key (((rows.filter p).insertionSort le).take n) := by
  have selected : Keyed key (rows.filter p) := keyed.sublist (List.filter_sublist.map key)
  have sorted : Keyed key ((rows.filter p).insertionSort le) :=
    ((perm_insertionSort le (rows.filter p)).map key).nodup_iff.mpr selected
  exact sorted.sublist ((take_sublist n _).map key)

variable [DecidableEq κ]

def get (rows : List α) (k : κ) : Option α := rows.find? fun r => key r = k

/-- Write a row version: over the row with its key, or as a new row. -/
def put (rows : List α) (row : α) : List α :=
  if (get key rows (key row)).isSome then
    rows.map fun r => if key r = key row then row else r
  else rows ++ [row]

/-- The sum of an integer over all rows. -/
def total (f : α → Int) (rows : List α) : Int := (rows.map f).sum

variable {key} {rows : List α} {row r : α} {k : κ} {f : α → Int}

theorem key_of_get (found : get key rows k = some r) : key r = k := by
  simpa using find?_some found

theorem mem_of_get (found : get key rows k = some r) : r ∈ rows := mem_of_find?_eq_some found

theorem get_eq_none : get key rows k = none ↔ ∀ r ∈ rows, key r ≠ k := by
  simp [get, find?_eq_none]

theorem get_of_mem (keyed : Keyed key rows) (member : r ∈ rows) :
    get key rows (key r) = some r := by
  induction rows with
  | nil => cases member
  | cons first rest ih =>
    obtain ⟨fresh, keyedRest⟩ := nodup_cons.mp keyed
    by_cases same : key first = key r
    · have isFirst : r = first := by
        rcases mem_cons.mp member with isFirst | later
        · exact isFirst
        · exact absurd (same ▸ mem_map_of_mem later) fresh
      simp [get, isFirst]
    · have later : r ∈ rest := by
        rcases mem_cons.mp member with rfl | later
        · exact absurd rfl same
        · exact later
      simp only [get, find?_cons, same, decide_false]
      exact ih keyedRest later

variable {more : List α}

theorem get_append : get key (rows ++ more) k = (get key rows k).or (get key more k) := by
  simp [get, find?_append]

/-! ## What a write does -/

theorem map_key_put :
    (put key rows row).map key =
      if (get key rows (key row)).isSome then rows.map key else rows.map key ++ [key row] := by
  unfold put
  split
  · rw [List.map_map]
    apply map_congr_left
    intro r _
    simp only [comp_apply]
    split
    · rename_i same
      exact same.symm
    · rfl
  · simp

theorem keyed_put (keyed : Keyed key rows) : Keyed key (put key rows row) := by
  unfold Keyed
  rw [map_key_put]
  split
  · exact keyed
  · rename_i absent
    have fresh := get_eq_none.mp (not_isSome_iff_eq_none.mp absent)
    refine nodup_append.mpr ⟨keyed, by simp, ?_⟩
    intro a inRows b inRow
    obtain ⟨r, member, rfl⟩ := List.mem_map.mp inRows
    rw [mem_singleton.mp inRow]
    exact fresh r member

/-- Looking a key up after the rows have been rewritten one by one. -/
theorem get_map_self (found : (get key rows (key row)).isSome) :
    get key (rows.map fun r => if key r = key row then row else r) (key row) = some row := by
  induction rows with
  | nil => cases found
  | cons first rest ih =>
    by_cases same : key first = key row
    · simp [get, same]
    · have later : (get key rest (key row)).isSome := by
        simpa [get, same] using found
      simpa [get, same] using ih later

theorem get_map_of_ne (differ : key row ≠ k) :
    get key (rows.map fun r => if key r = key row then row else r) k = get key rows k := by
  induction rows with
  | nil => rfl
  | cons first rest ih =>
    by_cases same : key first = key row
    · have notFirst : key first ≠ k := same ▸ differ
      simpa [get, same, differ, notFirst] using ih
    · by_cases isIt : key first = k
      · rw [map_cons, if_neg same]
        simp [get, isIt]
      · simpa [get, same, isIt] using ih

@[simp] theorem get_put_self : get key (put key rows row) (key row) = some row := by
  unfold put
  split
  · rename_i found
    exact get_map_self found
  · rename_i absent
    rw [get_append, not_isSome_iff_eq_none.mp absent]
    simp [get]

theorem get_put_of_ne (differ : key row ≠ k) : get key (put key rows row) k = get key rows k := by
  unfold put
  split
  · exact get_map_of_ne differ
  · rw [get_append]
    simp [get, differ]

theorem mem_put (member : r ∈ put key rows row) : r = row ∨ r ∈ rows ∧ key r ≠ key row := by
  unfold put at member
  split at member
  · obtain ⟨old, inRows, isRow⟩ := List.mem_map.mp member
    split at isRow
    · exact .inl isRow.symm
    · rename_i differ
      subst isRow
      exact .inr ⟨inRows, differ⟩
  · rename_i absent
    have fresh := get_eq_none.mp (not_isSome_iff_eq_none.mp absent)
    rcases mem_append.mp member with inRows | isRow
    · exact .inr ⟨inRows, fresh r inRows⟩
    · exact .inl (mem_singleton.mp isRow)

theorem mem_put_self : row ∈ put key rows row := mem_of_get get_put_self

theorem mem_put_of_ne (member : r ∈ rows) (differ : key r ≠ key row) : r ∈ put key rows row := by
  unfold put
  split
  · refine List.mem_map.mpr ⟨r, member, ?_⟩
    rw [if_neg differ]
  · exact mem_append_left _ member

/-- A write that keeps a column of its row keeps the column. -/
theorem map_put {β : Type} {g : α → β} (keyed : Keyed key rows)
    (found : get key rows (key row) = some r) (same : g row = g r) :
    (put key rows row).map g = rows.map g := by
  unfold put
  rw [found, if_pos (isSome_some), List.map_map]
  apply map_congr_left
  intro r' member
  simp only [comp_apply]
  split
  · rename_i isIt
    have again := get_of_mem keyed member
    rw [isIt, found] at again
    rw [same, Option.some.inj again]
  · rfl

/-- A write under a key that is there does not see the rows after it. -/
theorem put_append (found : get key rows (key row) = some r) (fresh : ∀ r ∈ more, key r ≠ key row) :
    put key (rows ++ more) row = put key rows row ++ more := by
  have isThere : (get key (rows ++ more) (key row)).isSome := by
    rw [get_append, found]
    rfl
  have untouched : more.map (fun r => if key r = key row then row else r) = more := by
    conv_rhs => rw [← map_id more]
    apply map_congr_left
    intro r member
    simp [fresh r member]
  unfold put
  rw [if_pos isThere, found, if_pos (isSome_some), map_append, untouched]

/-- A write under a new key. -/
theorem put_fresh (fresh : get key rows (key row) = none) : put key rows row = rows ++ [row] := by
  unfold put
  rw [fresh]
  rfl

/-! ## Sums -/

theorem total_append : total f (rows ++ more) = total f rows + total f more := by
  simp [total]

theorem total_eq_zero (zero : ∀ r ∈ rows, f r = 0) : total f rows = 0 := by
  have all : rows.map f = rows.map fun _ => (0 : Int) := map_congr_left zero
  rw [total, all]
  simp

theorem total_nonneg (nonneg : ∀ r ∈ rows, 0 ≤ f r) : 0 ≤ total f rows := by
  apply sum_nonneg
  intro n member
  obtain ⟨r, inRows, rfl⟩ := List.mem_map.mp member
  exact nonneg r inRows

/-- One row's share of a sum of non-negative integers. -/
theorem le_total (nonneg : ∀ r ∈ rows, 0 ≤ f r) (member : r ∈ rows) : f r ≤ total f rows := by
  induction rows with
  | nil => cases member
  | cons first rest ih =>
    have restNonneg : ∀ r ∈ rest, 0 ≤ f r := fun r later => nonneg r (mem_cons_of_mem _ later)
    have split : total f (first :: rest) = f first + total f rest := by simp [total]
    rcases mem_cons.mp member with rfl | later
    · have others := total_nonneg restNonneg
      omega
    · have share := ih restNonneg later
      have firstNonneg := nonneg first mem_cons_self
      omega

/-- A write replaces its old row's share of a sum by the new one. -/
theorem total_put (keyed : Keyed key rows) :
    total f (put key rows row) = total f rows - (get key rows (key row)).elim 0 f + f row := by
  unfold put
  split
  · rename_i found
    induction rows with
    | nil => cases found
    | cons first rest ih =>
      obtain ⟨fresh, keyedRest⟩ := nodup_cons.mp keyed
      by_cases same : key first = key row
      · -- the keys are distinct, so the rest of the table is not rewritten
        have others : rest.map (fun r => if key r = key row then row else r) = rest := by
          conv_rhs => rw [← map_id rest]
          apply map_congr_left
          intro r member
          have differ : key r ≠ key row :=
            fun again => fresh (same.trans again.symm ▸ mem_map_of_mem member)
          simp [differ]
        simp only [total, map_cons, same, if_true, others, sum_cons, get,
          find?_cons, decide_true, elim_some]
        omega
      · have later : (get key rest (key row)).isSome := by
          simpa [get, same] using found
        have rewritten := ih keyedRest later
        have isGet : get key (first :: rest) (key row) = get key rest (key row) := by
          simp [get, same]
        rw [isGet]
        simp only [total, map_cons, same, if_false, sum_cons] at rewritten ⊢
        omega
  · rename_i absent
    rw [not_isSome_iff_eq_none.mp absent, total_append]
    simp [total]

/-- A sum over the rows of a class. -/
theorem total_filter {p : α → Bool} :
    total f (rows.filter p) = total (fun r => if p r then f r else 0) rows := by
  induction rows with
  | nil => rfl
  | cons first rest ih =>
    cases isIn : p first with
    | true => simpa [total, isIn] using ih
    | false => simpa [total, isIn] using ih

theorem total_congr {g : α → Int} (same : ∀ r ∈ rows, g r = f r) : total g rows = total f rows := by
  rw [total, total, map_congr_left same]

/-- A sum of another integer that differs at one row. -/
theorem total_change {g : α → Int} (keyed : Keyed key rows) (found : get key rows k = some r)
    (same : ∀ r ∈ rows, key r ≠ k → g r = f r) : total g rows = total f rows - f r + g r := by
  induction rows with
  | nil => cases found
  | cons first rest ih =>
    obtain ⟨fresh, keyedRest⟩ := nodup_cons.mp keyed
    have restSame := fun r later => same r (mem_cons_of_mem _ later)
    by_cases isIt : key first = k
    · have isFirst : first = r := by simpa [get, isIt] using found
      have others : total g rest = total f rest := by
        apply total_congr
        intro r' later
        apply restSame r' later
        intro again
        exact fresh (isIt.trans again.symm ▸ mem_map_of_mem later)
      simp only [total, map_cons, sum_cons] at others ⊢
      rw [others, isFirst]
      omega
    · have later : get key rest k = some r := by simpa [get, isIt] using found
      have rest := ih keyedRest later restSame
      have isSame := same first mem_cons_self isIt
      simp only [total, map_cons, sum_cons] at rest ⊢
      rw [rest, isSame]
      omega

/-! ## The rows in the order of their keys -/

section Sorted

variable {ρ κ : Type} [LinearOrder κ] (key : ρ → κ)

/-- `ORDER BY` the key. -/
def sorted (rows : List ρ) : List ρ := rows.insertionSort fun a b => key a ≤ key b

variable {key} {rows others : List ρ} {row : ρ}

@[simp] theorem mem_sorted : row ∈ sorted key rows ↔ row ∈ rows :=
  (perm_insertionSort _ rows).mem_iff

theorem sorted_ordered : (sorted key rows).Pairwise fun a b => key a ≤ key b := by
  have total : Std.Total fun a b : ρ => key a ≤ key b :=
    ⟨fun a b => LinearOrder.le_total (key a) (key b)⟩
  have trans : IsTrans ρ fun a b : ρ => key a ≤ key b := ⟨fun _ _ _ => le_trans⟩
  exact pairwise_insertionSort (fun a b => key a ≤ key b) rows

theorem sorted_pairwise (keyed : Keyed key rows) :
    (sorted key rows).Pairwise fun a b => key a < key b := by
  have isKeyed : Keyed key (sorted key rows) :=
    ((perm_insertionSort _ rows).map key).nodup_iff.mpr keyed
  have differ := pairwise_map.mp isKeyed
  exact (sorted_ordered.and differ).imp fun both => lt_of_le_of_ne both.1 both.2

variable (key) in
theorem eq_of_pairwise_lt (ordered : rows.Pairwise fun a b => key a < key b)
    (orderedOther : others.Pairwise fun a b => key a < key b)
    (same : ∀ row, row ∈ rows ↔ row ∈ others) : rows = others := by
  have antisymm : Std.Antisymm fun a b : ρ => key a < key b :=
    ⟨fun _ _ less more => absurd more (lt_asymm less)⟩
  have irrefl : Std.Irrefl fun a b : ρ => key a < key b := ⟨fun a => lt_irrefl (key a)⟩
  exact List.Pairwise.eq_of_mem_iff ordered orderedOther same

end Sorted

/-! ## Tables with the same groups -/

section Groups

variable {ρ κ : Type} [DecidableEq ρ] [DecidableEq κ] {key : ρ → κ} {rows others : List ρ}

variable (key) in
theorem perm_of_groups
    (same : ∀ k, rows.filter (fun r => key r = k) = others.filter fun r => key r = k) :
    rows.Perm others := by
  rw [perm_iff_count]
  intro row
  have counted : ∀ table : List ρ,
      (table.filter fun r => key r = key row).count row = table.count row :=
    fun table => count_filter (decide_eq_true rfl)
  rw [← counted rows, same, counted others]

omit [DecidableEq ρ] in
/-- A group is rewritten, the others are left. -/
theorem group_replace {k group : κ} {new : List ρ} (isNew : ∀ r ∈ new, key r = k) :
    (rows.filter (fun r => key r ≠ k) ++ new).filter (fun r => key r = group) =
      if group = k then new else rows.filter fun r => key r = group := by
  rw [filter_append, List.filter_filter]
  split
  · rename_i isGroup
    have dropped : rows.filter (fun r => decide (key r = group) && decide (key r ≠ k)) = [] := by
      rw [filter_eq_nil_iff]
      intro r _ both
      simp [isGroup] at both
    have taken : new.filter (fun r => key r = group) = new := by
      rw [filter_eq_self]
      intro r among
      exact decide_eq_true ((isNew r among).trans isGroup.symm)
    rw [dropped, taken, nil_append]
  · rename_i isOther
    have kept : rows.filter (fun r => decide (key r = group) && decide (key r ≠ k)) =
        rows.filter fun r => key r = group := by
      apply filter_congr
      intro r _
      by_cases isGroup : key r = group
      · simp [isGroup, isOther]
      · simp [isGroup]
    have dropped : new.filter (fun r => key r = group) = [] := by
      rw [filter_eq_nil_iff]
      intro r among isGroup
      exact isOther ((of_decide_eq_true isGroup).symm.trans (isNew r among))
    rw [kept, dropped, append_nil]

omit [DecidableEq ρ] in
theorem group_remove {k group : κ} :
    (rows.filter fun r => key r ≠ k).filter (fun r => key r = group) =
      if group = k then [] else rows.filter fun r => key r = group := by
  have isReplaced : (rows.filter (fun r => key r ≠ k) ++ []).filter (fun r => key r = group) =
      if group = k then [] else rows.filter fun r => key r = group :=
    group_replace fun _ none => nomatch none
  rwa [append_nil] at isReplaced

end Groups

/-! ## Counting through a table that is sorted by its groups -/

section Counting

variable {ρ γ : Type} [LinearOrder γ] (group : ρ → γ) (position : ρ → Nat) (marked : ρ → Bool)

/-- The group that a pass over the rows is in, and the marked rows it has seen of it. -/
structure Counter (γ : Type) where
  group : Option γ := none
  count : Nat := 0

def Counter.enter (counter : Counter γ) (g : γ) : Counter γ :=
  if counter.group = some g then counter else ⟨some g, 0⟩

def Counter.tick (counter : Counter γ) (isMarked : Bool) : Counter γ :=
  if isMarked then { counter with count := counter.count + 1 } else counter

def marks (g : γ) (rows : List ρ) : Nat := rows.countP fun r => decide (group r = g) && marked r

/-- Those that do not stand behind a row of the group. -/
def marksUpTo (g : γ) (last : Nat) (rows : List ρ) : Nat :=
  rows.countP fun r => decide (group r = g) && marked r && decide (position r ≤ last)

/-- The counter after the rows of a pass. -/
def Counts (done : List ρ) (counter : Counter γ) : Prop :=
  counter.group = done.getLast?.map group ∧
    ∀ g, counter.group = some g → counter.count = marks group marked g done

variable {group position marked} {done rest : List ρ} {r : ρ} {counter : Counter γ}

theorem Counts.start : Counts group marked [] {} := ⟨rfl, fun _ none => nomatch none⟩

theorem Counts.enter (counts : Counts group marked done counter)
    (ordered : (done ++ [r]).Pairwise fun a b => group a ≤ group b) :
    counter.enter (group r) = ⟨some (group r), marks group marked (group r) done⟩ := by
  unfold Counter.enter
  split
  · rename_i isGroup
    rw [← counts.2 (group r) isGroup, ← isGroup]
  · rename_i isOther
    rw [Counter.mk.injEq]
    refine ⟨rfl, ?_⟩
    rw [marks, eq_comm, countP_eq_zero]
    intro x among both
    rw [Bool.and_eq_true, decide_eq_true_eq] at both
    rcases eq_nil_or_concat done with rfl | ⟨before, last, rfl⟩
    · exact nomatch among
    · rw [concat_eq_append] at *
      have isLast : ¬ group last = group r := by simpa [counts.1] using isOther
      have lastLe : group last ≤ group r := by
        rw [pairwise_append] at ordered
        exact ordered.2.2 last (by simp) r (mem_singleton_self r)
      have leLast : group x ≤ group last := by
        rcases mem_append.mp among with old | own
        · have both := (pairwise_append.mp (pairwise_append.mp ordered).1).2.2
          exact both x old last (mem_singleton_self last)
        · rw [mem_singleton.mp own]
      exact isLast (le_antisymm lastLe (both.1 ▸ leLast))

theorem Counts.step (counts : Counts group marked done counter)
    (ordered : (done ++ [r]).Pairwise fun a b => group a ≤ group b) :
    Counts group marked (done ++ [r]) ((counter.enter (group r)).tick (marked r)) := by
  rw [counts.enter ordered]
  unfold Counter.tick
  constructor
  · split <;> simp
  · intro g isGroup
    have isIt : group r = g := by
      split at isGroup <;> exact Option.some.inj isGroup
    subst isIt
    have counted : marks group marked (group r) (done ++ [r]) =
        marks group marked (group r) done + (marked r).toNat := by
      rw [marks, marks, countP_append]
      cases isMarked : marked r <;> simp [isMarked]
    rw [counted]
    cases marked r <;> rfl

/-- A pass has counted what stands up to its row. -/
theorem marks_add_eq (ordered : (done ++ r :: rest).Pairwise fun a b =>
      group a < group b ∨ group a = group b ∧ position a ≤ position b)
    (fresh : ∀ x ∈ rest, group x = group r → position x ≠ position r) :
    marks group marked (group r) done + (marked r).toNat =
      marksUpTo group position marked (group r) (position r) (done ++ r :: rest) := by
  have sameGroup : ∀ {a b : ρ}, group a < group b ∨ group a = group b ∧ position a ≤ position b →
      group a = group b → position a ≤ position b := by
    intro a b le same
    rcases le with less | ⟨-, le⟩
    · exact absurd same less.ne
    · exact le
  rw [pairwise_append] at ordered
  have before : marksUpTo group position marked (group r) (position r) done =
      marks group marked (group r) done := by
    apply countP_congr
    intro x among
    have le := ordered.2.2 x among r mem_cons_self
    simp only [Bool.and_eq_true, decide_eq_true_eq, and_iff_left_iff_imp]
    exact fun both => sameGroup le both.1
  have after : marksUpTo group position marked (group r) (position r) rest = 0 := by
    rw [marksUpTo, countP_eq_zero]
    intro x among all
    simp only [Bool.and_eq_true, decide_eq_true_eq] at all
    have le := sameGroup ((pairwise_cons.mp ordered.2.1).1 x among) all.1.1.symm
    exact fresh x among all.1.1 (le_antisymm all.2 le)
  unfold marksUpTo at before after ⊢
  rw [countP_append, countP_cons, before, after]
  cases marked r <;> simp

end Counting

end Kuku.Theory.Table
