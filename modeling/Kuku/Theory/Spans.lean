/-
# Theory.Spans -- items laid out one after another

Items of the given sizes fill the places from 0 on: the characters of a text its bytes, the
characters of a text those of its lower case.  Up to a place so many items have `ended` and so
many have `begun`; the two differ by the one item that the place cuts.
-/
import Mathlib

namespace Kuku.Theory.Spans

open List Nat

/-- The items that end at a place or before it. -/
def ended : List Nat → Nat → Nat
  | [], _ => 0
  | size :: rest, place => if size ≤ place then ended rest (place - size) + 1 else 0

/-- The items that begin before a place. -/
def begun : List Nat → Nat → Nat
  | [], _ => 0
  | size :: rest, place => if 0 < place then begun rest (place - size) + 1 else 0

variable {sizes : List Nat} {place other : Nat}

theorem ended_le_length (sizes : List Nat) (place : Nat) : ended sizes place ≤ sizes.length := by
  induction sizes generalizing place with
  | nil => exact Nat.le_refl _
  | cons size rest ih =>
    rw [ended, length_cons]
    have := ih (place - size)
    split <;> omega

theorem begun_le_length : begun sizes place ≤ sizes.length := by
  induction sizes generalizing place with
  | nil => exact Nat.le_refl _
  | cons size rest ih =>
    rw [begun, length_cons]
    have := @ih (place - size)
    split <;> omega

theorem begun_zero : begun sizes 0 = 0 := by
  cases sizes <;> rfl

theorem begun_le_ended_succ : begun sizes place ≤ ended sizes place + 1 := by
  induction sizes generalizing place with
  | nil => exact zero_le _
  | cons size rest ih =>
    rw [begun, ended]
    by_cases fits : size ≤ place
    · have := @ih (place - size)
      rw [if_pos fits]
      split <;> omega
    · have none : place - size = 0 := by omega
      rw [if_neg fits, none, begun_zero]
      split <;> omega

section Positive

variable (positive : ∀ size ∈ sizes, 0 < size)
include positive

theorem ended_le_begun : ended sizes place ≤ begun sizes place := by
  induction sizes generalizing place with
  | nil => exact Nat.le_refl _
  | cons size rest ih =>
    have own := positive size mem_cons_self
    have later := @ih (place - size) fun other among =>
      positive other (mem_cons_of_mem _ among)
    rw [ended, begun]
    split
    · rw [if_pos (by omega)]
      omega
    · exact zero_le _

theorem begun_le : begun sizes place ≤ place := by
  induction sizes generalizing place with
  | nil => exact zero_le _
  | cons size rest ih =>
    have own := positive size mem_cons_self
    have later := @ih (place - size) fun other among =>
      positive other (mem_cons_of_mem _ among)
    rw [begun]
    split <;> omega

theorem ended_le : ended sizes place ≤ place :=
  Nat.le_trans (ended_le_begun positive) (begun_le positive)

end Positive

theorem ended_mono (before : place ≤ other) : ended sizes place ≤ ended sizes other := by
  induction sizes generalizing place other with
  | nil => exact Nat.le_refl _
  | cons size rest ih =>
    rw [ended, ended]
    split
    · rw [if_pos (by omega)]
      exact succ_le_succ (ih (by omega))
    · exact zero_le _

/-- The place where so many items end. -/
def offset (sizes : List Nat) (count : Nat) : Nat := (sizes.take count).sum

theorem offset_ended (sizes : List Nat) (place : Nat) :
    offset sizes (ended sizes place) ≤ place := by
  induction sizes generalizing place with
  | nil => exact zero_le _
  | cons size rest ih =>
    rw [ended]
    split
    · rename_i fits
      have := ih (place - size)
      rw [offset] at this ⊢
      rw [take_succ_cons, sum_cons]
      omega
    · exact zero_le _

theorem ended_offset (positive : ∀ size ∈ sizes, 0 < size) {count : Nat}
    (inside : count ≤ sizes.length) : ended sizes (offset sizes count) = count := by
  induction sizes generalizing count with
  | nil => exact (Nat.le_zero.mp inside).symm
  | cons size rest ih =>
    have own := positive size mem_cons_self
    cases count with
    | zero =>
      rw [offset, take_zero, sum_nil, ended, if_neg (by omega)]
    | succ count =>
      have later := ih (fun other among => positive other (mem_cons_of_mem _ among))
        (le_of_succ_le_succ inside)
      have isOffset : offset (size :: rest) (count + 1) = size + offset rest count := by
        rw [offset, take_succ_cons, sum_cons, offset]
      rw [isOffset, ended, if_pos (by omega), Nat.add_sub_cancel_left, later]

end Kuku.Theory.Spans
