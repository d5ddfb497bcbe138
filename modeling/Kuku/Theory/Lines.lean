/-
# Theory.Lines -- a text as the list of its lines

`lines` cuts a text behind every end of line, so that the lines joined are the text.  A list of
lines is `Ruled` if only its last may lack its end; it is then what `lines` makes of the joined
text (`lines_flatten`).
-/
import Mathlib

namespace Kuku.Theory.Lines

open List

variable {α : Type} (isEnd : α → Bool)

/-- `split_inclusive`. -/
@[grind =] def lines : List α → List (List α)
  | [] => []
  | a :: rest =>
    if isEnd a then [a] :: lines rest
    else
      match lines rest with
      | [] => [[a]]
      | line :: more => (a :: line) :: more

/-- The line has its end, and no other. -/
def IsClosed (line : List α) : Prop :=
  ∃ init a, line = init ++ [a] ∧ isEnd a = true ∧ ∀ x ∈ init, isEnd x = false

def IsOpen (line : List α) : Prop := line ≠ [] ∧ ∀ x ∈ line, isEnd x = false

structure Ruled (ls : List (List α)) : Prop where
  line : ∀ l ∈ ls, IsClosed isEnd l ∨ IsOpen isEnd l
  closed : ls.Pairwise fun l _ => IsClosed isEnd l

variable {isEnd} {line more : List α} {ls : List (List α)}

theorem IsClosed.ne_nil (closed : IsClosed isEnd line) : line ≠ [] := by
  obtain ⟨init, a, rfl, -⟩ := closed
  simp

theorem IsClosed.not_open (closed : IsClosed isEnd line) : ¬ IsOpen isEnd line := by
  obtain ⟨init, a, rfl, isEndA, -⟩ := closed
  intro isOpen
  rw [isOpen.2 a (by simp)] at isEndA
  exact Bool.noConfusion isEndA

theorem lines_of_closed (closed : IsClosed isEnd line) :
    lines isEnd (line ++ more) = line :: lines isEnd more := by
  obtain ⟨init, a, rfl, isEndA, noEnd⟩ := closed
  induction init with
  | nil => simp [lines, isEndA]
  | cons x init ih =>
    have rest := ih fun y among => noEnd y (mem_cons_of_mem _ among)
    have isInner := noEnd x mem_cons_self
    rw [cons_append, cons_append, lines, if_neg (by simp [isInner]), rest]

theorem lines_of_open (isOpen : IsOpen isEnd line) : lines isEnd line = [line] := by
  obtain ⟨nonempty, noEnd⟩ := isOpen
  induction line with
  | nil => exact absurd rfl nonempty
  | cons x line ih =>
    have isInner := noEnd x mem_cons_self
    rw [lines, if_neg (by simp [isInner])]
    cases line with
    | nil => rfl
    | cons y line =>
      rw [ih (cons_ne_nil _ _) fun z among => noEnd z (mem_cons_of_mem _ among)]

theorem flatten_lines (text : List α) : (lines isEnd text).flatten = text := by
  induction text with
  | nil => rfl
  | cons a rest ih =>
    rw [lines]
    split
    · rw [flatten_cons, ih]
      rfl
    · cases cut : lines isEnd rest with
      | nil =>
        rw [cut] at ih
        simp [← ih]
      | cons line more =>
        rw [cut] at ih
        simp [← ih]

theorem Ruled.tail {l : List α} (ruled : Ruled isEnd (l :: ls)) : Ruled isEnd ls where
  line := fun x among => ruled.line x (mem_cons_of_mem _ among)
  closed := (pairwise_cons.mp ruled.closed).2

/-- **Lines that are ruled are the lines of their text.** -/
theorem lines_flatten (ruled : Ruled isEnd ls) : lines isEnd ls.flatten = ls := by
  induction ls with
  | nil => rfl
  | cons l ls ih =>
    have rest := ih ruled.tail
    cases ls with
    | nil =>
      rw [flatten_singleton]
      rcases ruled.line l mem_cons_self with closed | isOpen
      · have cut : lines isEnd (l ++ []) = l :: lines isEnd [] := lines_of_closed closed
        rwa [append_nil] at cut
      · exact lines_of_open isOpen
    | cons next ls =>
      have closed := (pairwise_cons.mp ruled.closed).1 next mem_cons_self
      rw [flatten_cons, lines_of_closed closed, rest]

theorem ruled_lines (text : List α) : Ruled isEnd (lines isEnd text) := by
  induction text with
  | nil => exact ⟨(fun _ none => nomatch none), List.Pairwise.nil⟩
  | cons a rest ih =>
    rw [lines]
    split
    · rename_i isEndA
      have closed : IsClosed isEnd [a] := ⟨[], a, rfl, isEndA, fun _ none => nomatch none⟩
      constructor
      · intro l among
        rcases mem_cons.mp among with rfl | later
        · exact .inl closed
        · exact ih.line l later
      · exact pairwise_cons.mpr ⟨fun _ _ => closed, ih.closed⟩
    · rename_i isInner
      rw [Bool.not_eq_true] at isInner
      have isOpen : IsOpen isEnd [a] := ⟨by simp, by simpa using isInner⟩
      cases cut : lines isEnd rest with
      | nil => exact ⟨by simpa using .inr isOpen, pairwise_singleton _ _⟩
      | cons line more =>
        rw [cut] at ih
        have extended : IsClosed isEnd line → IsClosed isEnd (a :: line) := by
          rintro ⟨init, b, rfl, isEndB, noEnd⟩
          refine ⟨a :: init, b, rfl, isEndB, ?_⟩
          intro x among
          rcases mem_cons.mp among with rfl | inner
          · exact isInner
          · exact noEnd x inner
        have openExtended : IsOpen isEnd line → IsOpen isEnd (a :: line) := by
          rintro ⟨-, noEnd⟩
          refine ⟨cons_ne_nil _ _, ?_⟩
          intro x among
          rcases mem_cons.mp among with rfl | inner
          · exact isInner
          · exact noEnd x inner
        constructor
        · intro l among
          rcases mem_cons.mp among with rfl | later
          · exact (ih.line line mem_cons_self).imp extended openExtended
          · exact ih.line l (mem_cons_of_mem _ later)
        · obtain ⟨head, tail⟩ := pairwise_cons.mp ih.closed
          exact pairwise_cons.mpr ⟨fun l later => extended (head l later), tail⟩

theorem Ruled.ne_nil (ruled : Ruled isEnd ls) {l : List α} (among : l ∈ ls) : l ≠ [] :=
  (ruled.line l among).elim IsClosed.ne_nil And.left

/-- A line with another behind it has its end. -/
theorem Ruled.closed_of_lt (ruled : Ruled isEnd ls) {i : Nat} (before : i + 1 < ls.length) :
    IsClosed isEnd (ls.getD i []) := by
  have closed := pairwise_iff_getElem.mp ruled.closed i (i + 1) (by omega) before (by omega)
  rwa [getD_eq_getElem?_getD, getElem?_eq_getElem (by omega), Option.getD_some]

/-- Two lines of which the first is open are one line. -/
theorem line_of_open_append (isOpen : IsOpen isEnd line) :
    (IsClosed isEnd more → IsClosed isEnd (line ++ more)) ∧
      (IsOpen isEnd more → IsOpen isEnd (line ++ more)) := by
  constructor
  · rintro ⟨init, a, rfl, isEndA, noEnd⟩
    refine ⟨line ++ init, a, by simp, isEndA, ?_⟩
    intro x among
    exact (mem_append.mp among).elim (isOpen.2 x) (noEnd x)
  · rintro ⟨-, noEnd⟩
    refine ⟨by simp [isOpen.1], ?_⟩
    intro x among
    exact (mem_append.mp among).elim (isOpen.2 x) (noEnd x)

end Kuku.Theory.Lines
