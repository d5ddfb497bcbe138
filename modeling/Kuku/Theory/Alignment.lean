/-
# Theory.Alignment -- two lists told as one list of steps

An alignment of two lists keeps, changes, removes and adds entries so that the first list is
read off on one side and the second on the other.  Its price is the number of steps that do
not keep.  `cost` is the table of least prices of the suffixes, and `walk` reads a least
alignment off it; among the least it is the first when keeping comes before changing, changing
before removing and removing before adding (`walk_firstLeast`).
-/
import Mathlib

namespace Kuku.Theory.Alignment

open List

inductive Step (α : Type) where
  | keep (a : α)
  | change (a b : α)
  | remove (a : α)
  | add (b : α)

namespace Step

variable {α : Type}

def left : Step α → List α
  | keep a | change a _ | remove a => [a]
  | add _ => []

def price : Step α → Nat
  | keep _ => 0
  | change _ _ => 1
  | remove _ => 1
  | add _ => 1

/-- The preference among steps. -/
def rank : Step α → Nat
  | keep _ => 0
  | change _ _ => 1
  | remove _ => 2
  | add _ => 3

end Step

section

variable {α : Type} (same near : α → α → Bool)

/-- The steps tell the second list from the first; they keep what is the same and change what is
near. -/
inductive Aligns : List α → List α → List (Step α) → Prop
  | nil : Aligns [] [] []
  | keep {a b : α} {old new : List α} {steps : List (Step α)} (isSame : same a b = true)
      (rest : Aligns old new steps) : Aligns (a :: old) (b :: new) (.keep a :: steps)
  | change {a b : α} {old new : List α} {steps : List (Step α)} (isNear : near a b = true)
      (rest : Aligns old new steps) : Aligns (a :: old) (b :: new) (.change a b :: steps)
  | remove {a : α} {old new : List α} {steps : List (Step α)} (rest : Aligns old new steps) :
      Aligns (a :: old) new (.remove a :: steps)
  | add {b : α} {old new : List α} {steps : List (Step α)} (rest : Aligns old new steps) :
      Aligns old (b :: new) (.add b :: steps)

def price (steps : List (Step α)) : Nat := (steps.map Step.price).sum

def ranks (steps : List (Step α)) : List Nat := steps.map Step.rank

/-- A least alignment that comes before the others of its price. -/
structure FirstLeast (old new : List α) (steps : List (Step α)) : Prop where
  aligns : Aligns same near old new steps
  least : ∀ others, Aligns same near old new others → price steps ≤ price others
  first : ∀ others, Aligns same near old new others → price others = price steps →
    others = steps ∨ ranks steps < ranks others

/-- The table entry of two suffixes. -/
def cost : List α → List α → Nat
  | [], new => new.length
  | old, [] => old.length
  | a :: old, b :: new =>
    let best := min (1 + cost old (b :: new)) (1 + cost (a :: old) new)
    if same a b then min best (cost old new)
    else if near a b then min best (1 + cost old new)
    else best
termination_by old new => old.length + new.length
decreasing_by
  all_goals
    simp only [length_cons]
    omega

/-- The steps that the table allows, the preferred one first. -/
def walk : List α → List α → List (Step α)
  | [], new => new.map .add
  | old, [] => old.map .remove
  | a :: old, b :: new =>
    if same a b = true ∧ cost same near (a :: old) (b :: new) = cost same near old new then
      .keep a :: walk old new
    else if near a b = true ∧ cost same near (a :: old) (b :: new) = 1 + cost same near old new then
      .change a b :: walk old new
    else if cost same near (a :: old) (b :: new) = 1 + cost same near old (b :: new) then
      .remove a :: walk old (b :: new)
    else .add b :: walk (a :: old) new
termination_by old new => old.length + new.length
decreasing_by
  all_goals
    simp only [length_cons]
    omega

end

section Least

variable {α : Type} {same near : α → α → Bool} {old new : List α} {a b : α}
  {steps others : List (Step α)} {step : Step α}

@[simp] theorem price_cons : price (step :: steps) = step.price + price steps := by
  simp [price]

theorem cost_nil_left : cost same near [] new = new.length := by
  rw [cost]

theorem cost_nil_right : cost same near old [] = old.length := by
  cases old with
  | nil => rw [cost_nil_left]
  | cons a old =>
    rw [cost]
    exact fun none => nomatch none

theorem cost_cons : cost same near (a :: old) (b :: new) =
    if same a b then min (min (1 + cost same near old (b :: new))
      (1 + cost same near (a :: old) new)) (cost same near old new)
    else if near a b then min (min (1 + cost same near old (b :: new))
      (1 + cost same near (a :: old) new)) (1 + cost same near old new)
    else min (1 + cost same near old (b :: new)) (1 + cost same near (a :: old) new) := by
  rw [cost]

/-- No entry of the table is above its neighbours. -/
theorem cost_le_remove : cost same near (a :: old) new ≤ 1 + cost same near old new := by
  cases new with
  | nil =>
    rw [cost_nil_right, cost_nil_right, length_cons]
    omega
  | cons b new =>
    rw [cost_cons]
    split
    · omega
    · split <;> omega

theorem cost_le_add : cost same near old (b :: new) ≤ 1 + cost same near old new := by
  cases old with
  | nil =>
    rw [cost_nil_left, cost_nil_left, length_cons]
    omega
  | cons a old =>
    rw [cost_cons]
    split
    · omega
    · split <;> omega

theorem cost_le_keep (isSame : same a b = true) :
    cost same near (a :: old) (b :: new) ≤ cost same near old new := by
  rw [cost_cons, if_pos isSame]
  exact min_le_right _ _

theorem cost_le_change (isNear : near a b = true) :
    cost same near (a :: old) (b :: new) ≤ 1 + cost same near old new := by
  rw [cost_cons, if_pos isNear]
  split
  · omega
  · exact min_le_right _ _

/-- No alignment is cheaper than the table says. -/
theorem cost_le (aligns : Aligns same near old new steps) : cost same near old new ≤ price steps := by
  induction aligns with
  | nil => rw [cost_nil_left]; rfl
  | keep isSame _ ih =>
    rw [price_cons, Step.price, Nat.zero_add]
    exact (cost_le_keep isSame).trans ih
  | change isNear _ ih =>
    rw [price_cons, Step.price]
    exact (cost_le_change isNear).trans (Nat.add_le_add_left ih 1)
  | remove _ ih =>
    rw [price_cons, Step.price]
    exact cost_le_remove.trans (Nat.add_le_add_left ih 1)
  | add _ ih =>
    rw [price_cons, Step.price]
    exact cost_le_add.trans (Nat.add_le_add_left ih 1)

theorem aligns_adds : Aligns same near [] new (new.map .add) := by
  induction new with
  | nil => exact .nil
  | cons b new ih => exact .add ih

theorem aligns_removes : Aligns same near old [] (old.map .remove) := by
  induction old with
  | nil => exact .nil
  | cons a old ih => exact .remove ih

theorem price_adds : price (new.map .add) = new.length := by
  induction new with
  | nil => rfl
  | cons b new ih =>
    rw [map_cons, price_cons, ih, Step.price, length_cons]
    omega

theorem price_removes : price (old.map .remove) = old.length := by
  induction old with
  | nil => rfl
  | cons a old ih =>
    rw [map_cons, price_cons, ih, Step.price, length_cons]
    omega

theorem walk_nil_left : walk same near [] new = new.map .add := by
  rw [walk]

theorem walk_nil_right : walk same near old [] = old.map .remove := by
  cases old with
  | nil => rw [walk_nil_left]; rfl
  | cons a old =>
    rw [walk]
    exact fun none => nomatch none

theorem walk_cons : walk same near (a :: old) (b :: new) =
    if same a b = true ∧ cost same near (a :: old) (b :: new) = cost same near old new then
      .keep a :: walk same near old new
    else if near a b = true ∧ cost same near (a :: old) (b :: new) = 1 + cost same near old new then
      .change a b :: walk same near old new
    else if cost same near (a :: old) (b :: new) = 1 + cost same near old (b :: new) then
      .remove a :: walk same near old (b :: new)
    else .add b :: walk same near (a :: old) new := by
  rw [walk]

/-- What is left when no other step has the price of the entry. -/
theorem cost_eq_add (notKeep : ¬ (same a b = true ∧
      cost same near (a :: old) (b :: new) = cost same near old new))
    (notChange : ¬ (near a b = true ∧
      cost same near (a :: old) (b :: new) = 1 + cost same near old new))
    (notRemove : ¬ cost same near (a :: old) (b :: new) = 1 + cost same near old (b :: new)) :
    cost same near (a :: old) (b :: new) = 1 + cost same near (a :: old) new := by
  rw [cost_cons] at notKeep notChange notRemove ⊢
  cases isSame : same a b with
  | true =>
    simp only [isSame, if_true, true_and] at notKeep notRemove ⊢
    omega
  | false =>
    cases isNear : near a b with
    | true =>
      simp only [isSame, isNear, Bool.false_eq_true, if_false, if_true, true_and]
        at notChange notRemove ⊢
      omega
    | false =>
      simp only [isSame, isNear, Bool.false_eq_true, if_false] at notRemove ⊢
      omega

theorem walk_aligns : Aligns same near old new (walk same near old new) ∧
    price (walk same near old new) = cost same near old new := by
  fun_induction walk same near old new with
  | case1 new => exact ⟨aligns_adds, price_adds.trans cost_nil_left.symm⟩
  | case2 old _ => exact ⟨aligns_removes, price_removes.trans cost_nil_right.symm⟩
  | case3 a old b new isKeep ih =>
    refine ⟨.keep isKeep.1 ih.1, ?_⟩
    rw [price_cons, ih.2, isKeep.2, Step.price, Nat.zero_add]
  | case4 a old b new _ isChange ih =>
    refine ⟨.change isChange.1 ih.1, ?_⟩
    rw [price_cons, ih.2, isChange.2, Step.price]
  | case5 a old b new _ _ isRemove ih =>
    refine ⟨.remove ih.1, ?_⟩
    rw [price_cons, ih.2, isRemove, Step.price]
  | case6 a old b new notKeep notChange notRemove ih =>
    refine ⟨.add ih.1, ?_⟩
    rw [price_cons, ih.2, cost_eq_add notKeep notChange notRemove, Step.price]

theorem walk_first (aligns : Aligns same near old new others)
    (isLeast : price others = cost same near old new) :
    others = walk same near old new ∨ ranks (walk same near old new) < ranks others := by
  -- a preferred first step decides, the same first step leaves it to the rest
  have cons : ∀ {step : Step α} {rest walked : List (Step α)},
      rest = walked ∨ ranks walked < ranks rest →
      step :: rest = step :: walked ∨ ranks (step :: walked) < ranks (step :: rest) := by
    rintro step rest walked (rfl | before)
    · exact .inl rfl
    · exact .inr (cons_lt_cons_iff.mpr (.inr ⟨rfl, before⟩))
  have sooner : ∀ {step other : Step α} {rest walked : List (Step α)}, step.rank < other.rank →
      other :: rest = step :: walked ∨ ranks (step :: walked) < ranks (other :: rest) :=
    fun before => .inr (cons_lt_cons_iff.mpr (.inl before))
  induction aligns with
  | nil => exact .inl (by rw [walk_nil_left]; rfl)
  | @keep a b old new rest isSame aligned ih =>
    rw [price_cons, Step.price, Nat.zero_add] at isLeast
    have bound := cost_le aligned
    have entry : cost same near (a :: old) (b :: new) = cost same near old new :=
      le_antisymm (cost_le_keep isSame) (isLeast ▸ bound)
    rw [walk_cons, if_pos ⟨isSame, entry⟩]
    exact cons (ih (isLeast.trans entry))
  | @change a b old new rest isNear aligned ih =>
    rw [price_cons, Step.price] at isLeast
    have bound := cost_le aligned
    have upper : cost same near (a :: old) (b :: new) ≤ 1 + cost same near old new :=
      cost_le_change isNear
    have entry : cost same near (a :: old) (b :: new) = 1 + cost same near old new := by omega
    rw [walk_cons]
    split
    · exact sooner Nat.zero_lt_one
    · rw [if_pos ⟨isNear, entry⟩]
      exact cons (ih (by omega))
  | @remove a old new rest aligned ih =>
    rw [price_cons, Step.price] at isLeast
    have bound := cost_le aligned
    have upper : cost same near (a :: old) new ≤ 1 + cost same near old new := cost_le_remove
    have entry : cost same near (a :: old) new = 1 + cost same near old new := by omega
    cases new with
    | nil =>
      have walked := ih (by omega)
      rw [walk_nil_right] at walked ⊢
      exact cons walked
    | cons b new =>
      rw [walk_cons]
      split
      · exact sooner Nat.two_pos
      · split
        · exact sooner Nat.one_lt_two
        · -- the entry decides for the removal
          exact cons (ih (by omega))
  | @add b old new rest aligned ih =>
    rw [price_cons, Step.price] at isLeast
    have bound := cost_le aligned
    have upper : cost same near old (b :: new) ≤ 1 + cost same near old new := cost_le_add
    have entry : cost same near old (b :: new) = 1 + cost same near old new := by omega
    cases old with
    | nil =>
      have walked := ih (by omega)
      rw [walk_nil_left] at walked ⊢
      exact cons walked
    | cons a old =>
      rw [walk_cons]
      split
      · exact sooner (Nat.succ_pos 2)
      · split
        · exact sooner (Nat.one_lt_succ_succ 1)
        · split
          · exact sooner (Nat.lt_succ_self 2)
          · exact cons (ih (by omega))

/-- **The walk is the first least alignment.** -/
theorem walk_firstLeast : FirstLeast same near old new (walk same near old new) where
  aligns := walk_aligns.1
  least := fun _ aligns => walk_aligns.2 ▸ cost_le aligns
  first := fun _ aligns equal => walk_first aligns (equal.trans walk_aligns.2)

theorem FirstLeast.unique (first : FirstLeast same near old new steps)
    (second : FirstLeast same near old new others) : steps = others := by
  have equal : price steps = price others :=
    le_antisymm (first.least _ second.aligns) (second.least _ first.aligns)
  rcases first.first _ second.aligns equal.symm with isIt | before
  · exact isIt.symm
  · rcases second.first _ first.aligns equal with isIt | after
    · exact isIt
    · exact absurd after (lt_asymm before)

/-- What stands on each side. -/
theorem Aligns.left (aligns : Aligns same near old new steps) : steps.flatMap Step.left = old := by
  induction aligns with
  | nil => rfl
  | keep _ _ ih | change _ _ ih | remove _ ih =>
    rw [flatMap_cons, ih]
    rfl
  | add _ ih =>
    rw [flatMap_cons, ih]
    rfl

end Least

end Kuku.Theory.Alignment
