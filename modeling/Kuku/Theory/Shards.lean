/-
# Theory.Shards -- a list cut into shards under a cap

A *cut* of a list of weighted items is the list again, in shards that are not empty, weigh at
most the cap and could not have taken the next item.  The greedy rule makes one (`cut_isCut`),
and the sums it makes on the way are those that an adder of bounded width must hold
(`SumsBelow`).
-/
import Mathlib

namespace Kuku.Theory.Shards

open List Option

variable {α : Type} (weight : α → Int) (cap : Int)

def total (xs : List α) : Int := (xs.map weight).sum

/-- The next shard could not have gone into this one: not even its first item could. -/
def Full (shard next : List α) : Prop := ∀ x ∈ next.head?, cap < total weight shard + weight x

structure IsCut (xs : List α) (shards : List (List α)) : Prop where
  flatten : shards.flatten = xs
  nonempty : ∀ shard ∈ shards, shard ≠ []
  fits : ∀ shard ∈ shards, total weight shard ≤ cap
  full : shards.IsChain (Full weight cap)

variable {weight} {cap} {xs ys shard : List α} {x : α}

@[simp] theorem total_nil : total weight [] = 0 := rfl

@[simp] theorem total_singleton : total weight [x] = weight x := by
  simp [total]

theorem total_append : total weight (xs ++ ys) = total weight xs + total weight ys := by
  rw [total, map_append, sum_append]
  rfl

theorem total_nonneg (nonneg : ∀ x ∈ xs, 0 ≤ weight x) : 0 ≤ total weight xs := by
  refine sum_nonneg fun w among => ?_
  obtain ⟨x, isItem, rfl⟩ := List.mem_map.mp among
  exact nonneg x isItem

/-! ## The greedy rule -/

variable (weight cap) in
/-- Each item goes into the shard at hand, or starts the next one where it does not fit. -/
def cut : List α → List α → List (List α)
  | shard, [] => if shard = [] then [] else [shard]
  | shard, x :: xs =>
    if shard ≠ [] ∧ cap < total weight shard + weight x then shard :: cut [x] xs
    else cut (shard ++ [x]) xs

variable (weight cap) in
/-- Every sum that the greedy rule makes is under a bound. -/
def SumsBelow (bound : Int) : List α → List α → Prop
  | _, [] => True
  | shard, x :: xs =>
    total weight shard + weight x < bound ∧
      if shard ≠ [] ∧ cap < total weight shard + weight x then SumsBelow bound [x] xs
      else SumsBelow bound (shard ++ [x]) xs

instance decidableSumsBelow (bound : Int) :
    (shard xs : List α) → Decidable (SumsBelow weight cap bound shard xs)
  | _, [] => .isTrue trivial
  | shard, x :: xs =>
    have := decidableSumsBelow bound [x] xs
    have := decidableSumsBelow bound (shard ++ [x]) xs
    inferInstanceAs (Decidable (total weight shard + weight x < bound ∧
      if shard ≠ [] ∧ cap < total weight shard + weight x then SumsBelow weight cap bound [x] xs
      else SumsBelow weight cap bound (shard ++ [x]) xs))

/-- The first shard of what is cut begins with the shard at hand. -/
theorem head_cut (nonempty : shard ≠ []) : ∃ more rest, cut weight cap shard xs =
    (shard ++ more) :: rest := by
  induction xs generalizing shard with
  | nil => exact ⟨[], [], by rw [cut, if_neg nonempty, append_nil]⟩
  | cons x xs ih =>
    rw [cut]
    split_ifs with isFull
    · exact ⟨[], cut weight cap [x] xs, by rw [append_nil]⟩
    · obtain ⟨more, rest, isHead⟩ := ih (append_ne_nil_of_left_ne_nil nonempty [x])
      exact ⟨x :: more, rest, by rw [isHead, append_assoc]; rfl⟩

theorem cut_isCut_of (each : ∀ x ∈ xs, weight x ≤ cap) (fits : total weight shard ≤ cap) :
    IsCut weight cap (shard ++ xs) (cut weight cap shard xs) := by
  induction xs generalizing shard with
  | nil =>
    rw [cut, append_nil]
    split_ifs with isNil
    · rw [isNil]
      exact ⟨rfl, nofun, nofun, .nil⟩
    · exact ⟨flatten_singleton, fun s among => mem_singleton.mp among ▸ isNil,
        fun s among => mem_singleton.mp among ▸ fits, .singleton _⟩
  | cons x xs ih =>
    obtain ⟨eachFirst, eachRest⟩ := forall_mem_cons.mp each
    rw [cut]
    split_ifs with isFull
    · have rest : IsCut weight cap ([x] ++ xs) (cut weight cap [x] xs) :=
        ih eachRest (by rwa [total_singleton])
      obtain ⟨more, later, isHead⟩ : ∃ more later, cut weight cap [x] xs = ([x] ++ more) :: later :=
        head_cut (cons_ne_nil x [])
      refine ⟨?_, ?_, ?_, ?_⟩
      · rw [flatten_cons, rest.flatten, singleton_append]
      · exact forall_mem_cons.mpr ⟨isFull.1, rest.nonempty⟩
      · exact forall_mem_cons.mpr ⟨fits, rest.fits⟩
      · rw [isHead]
        refine isChain_cons_cons.mpr ⟨?_, isHead ▸ rest.full⟩
        intro y isFirst
        rw [← some_inj.mp (mem_def.mp isFirst)]
        exact isFull.2
    · have grown : total weight (shard ++ [x]) ≤ cap := by
        rw [total_append, total_singleton]
        by_cases isNil : shard = []
        · rw [isNil, total_nil, zero_add]
          exact eachFirst
        · exact not_lt.mp fun less => isFull ⟨isNil, less⟩
      have rest := ih eachRest grown
      rwa [append_assoc, singleton_append] at rest

/-- The greedy rule cuts what has no item over the cap. -/
theorem cut_isCut (positive : 0 ≤ cap) (each : ∀ x ∈ xs, weight x ≤ cap) :
    IsCut weight cap xs (cut weight cap [] xs) :=
  cut_isCut_of each (le_of_eq_of_le total_nil positive)

end Kuku.Theory.Shards
