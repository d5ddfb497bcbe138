/-
# Theory.Kept -- what a rewriting of a list keeps, in order

`Kept keep before after`: the members of `before` that `keep` selects all stand in `after`,
in the same order.  What stands between them in `after` is left open.  The relation is a
preorder, and a rewriting of the parts of a list is a rewriting of the list.
-/
import Mathlib

namespace Kuku.Theory

open List

variable {α β : Type} {keep : α → Bool}

def Kept (keep : α → Bool) (before after : List α) : Prop :=
  (before.filter keep).Sublist (after.filter keep)

namespace Kept

theorem refl (xs : List α) : Kept keep xs xs := List.Sublist.refl _

theorem of_eq {xs ys : List α} (same : ys.filter keep = xs.filter keep) : Kept keep xs ys := by
  rw [Kept, same]

theorem trans {xs ys zs : List α} (first : Kept keep xs ys) (second : Kept keep ys zs) :
    Kept keep xs zs :=
  List.Sublist.trans first second

@[simp] theorem nil (ys : List α) : Kept keep [] ys := nil_sublist _

theorem append {xs ys us vs : List α} (left : Kept keep xs us) (right : Kept keep ys vs) :
    Kept keep (xs ++ ys) (us ++ vs) := by
  rw [Kept, filter_append, filter_append]
  exact List.Sublist.append left right

/-- **Rewriting each part keeps what the parts keep.** -/
theorem flatMap {f g : β → List α} {parts : List β}
    (each : ∀ part ∈ parts, Kept keep (f part) (g part)) :
    Kept keep (parts.flatMap f) (parts.flatMap g) := by
  induction parts with
  | nil => exact nil _
  | cons part rest ih =>
    have first := each part mem_cons_self
    have others := ih fun other among => each other (mem_cons_of_mem _ among)
    rw [flatMap_cons, flatMap_cons]
    exact append first others

/-- Cutting at members that need not be kept, and dropping them, keeps the rest. -/
theorem filter_splitOnP {cut : α → Bool} (unkept : ∀ x, cut x = true → keep x = false)
    (xs : List α) :
    (xs.splitOnP cut).flatten.filter keep = xs.filter keep := by
  induction xs with
  | nil => rfl
  | cons x rest ih =>
    rw [splitOnP_cons_eq_if_modifyHead]
    split
    · rename_i isCut
      simpa [unkept x isCut] using ih
    · cases pieces : rest.splitOnP cut with
      | nil => exact absurd pieces (splitOnP_ne_nil _ _)
      | cons piece more =>
        rw [pieces] at ih
        simp only [modifyHead_cons, flatten_cons, cons_append, filter_cons] at ih ⊢
        rw [ih]

/-- Dropping members that need not be kept from the front keeps the rest. -/
theorem filter_dropWhile {drop : α → Bool} (unkept : ∀ x, drop x = true → keep x = false)
    (xs : List α) : (xs.dropWhile drop).filter keep = xs.filter keep := by
  induction xs with
  | nil => rfl
  | cons x rest ih =>
    rw [dropWhile_cons]
    split
    · rename_i isDropped
      rw [ih, filter_cons, unkept x isDropped]
      rfl
    · rfl

theorem filter_rdropWhile {drop : α → Bool} (unkept : ∀ x, drop x = true → keep x = false)
    (xs : List α) : (xs.rdropWhile drop).filter keep = xs.filter keep := by
  rw [List.rdropWhile, filter_reverse, filter_dropWhile unkept, filter_reverse, reverse_reverse]

end Kept

end Kuku.Theory
