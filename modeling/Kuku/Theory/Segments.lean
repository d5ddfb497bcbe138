/-
# Theory.Segments -- a list cut at its separators, and put together again

Pieces without a separator are read back from what joins them (`splitOnP_intercalate`).
The pieces of any list have no separator (`clean_of_mem_splitOnP`), there is one more of
them than there are separators (`length_splitOnP`), and cutting a part of a list gives
parts of the pieces (`infix_of_mem_splitOnP`).
-/
import Mathlib

namespace Kuku.Theory.Segments

open List

variable {α : Type} {p : α → Bool} {sep : α} {xs ys piece : List α} {pieces : List (List α)}

/-! ## Putting together -/

theorem splitOnP_intercalate (isSep : p sep = true) (nonempty : pieces ≠ [])
    (clean : ∀ piece ∈ pieces, ∀ x ∈ piece, p x = false) :
    ([sep].intercalate pieces).splitOnP p = pieces := by
  induction pieces with
  | nil => exact absurd rfl nonempty
  | cons piece rest ih =>
    have here := clean piece mem_cons_self
    have later := fun other among => clean other (mem_cons_of_mem _ among)
    cases rest with
    | nil => rw [intercalate_singleton, splitOnP_eq_singleton here]
    | cons next more =>
      rw [intercalate_cons_cons, append_assoc, singleton_append,
        splitOnP_append_cons_of_forall_mem here sep isSep,
        ih (cons_ne_nil _ _) later]

theorem countP_intercalate (isSep : p sep = true)
    (clean : ∀ piece ∈ pieces, ∀ x ∈ piece, p x = false) :
    ([sep].intercalate pieces).countP p = pieces.length - 1 := by
  induction pieces with
  | nil => rfl
  | cons piece rest ih =>
    have here : piece.countP p = 0 := by
      rw [countP_eq_zero]
      intro x among
      simp [clean piece mem_cons_self x among]
    have later := ih fun other among => clean other (mem_cons_of_mem _ among)
    cases rest with
    | nil => rw [intercalate_singleton, here]; rfl
    | cons next more =>
      rw [intercalate_cons_cons, countP_append, countP_append, here, later]
      simp [isSep]
      omega

theorem mem_intercalate {x : α} (among : x ∈ [sep].intercalate pieces) :
    x = sep ∨ ∃ piece ∈ pieces, x ∈ piece := by
  induction pieces with
  | nil => cases among
  | cons piece rest ih =>
    cases rest with
    | nil =>
      rw [intercalate_singleton] at among
      exact .inr ⟨piece, mem_cons_self, among⟩
    | cons next more =>
      rw [intercalate_cons_cons, mem_append, mem_append, mem_singleton] at among
      rcases among with (here | isSep) | later
      · exact .inr ⟨piece, mem_cons_self, here⟩
      · exact .inl isSep
      · rcases ih later with isSep | ⟨other, isOther, within⟩
        · exact .inl isSep
        · exact .inr ⟨other, mem_cons_of_mem _ isOther, within⟩

theorem infix_intercalate (isPiece : piece ∈ pieces) : piece <:+: [sep].intercalate pieces := by
  induction pieces with
  | nil => cases isPiece
  | cons first rest ih =>
    cases rest with
    | nil =>
      rw [mem_singleton.mp isPiece]
      exact intercalate_singleton.symm ▸ infix_rfl
    | cons next more =>
      rw [intercalate_cons_cons]
      rcases mem_cons.mp isPiece with rfl | later
      · exact ⟨[], [sep] ++ [sep].intercalate (next :: more), by simp⟩
      · exact (ih later).trans (suffix_append _ _).isInfix

theorem head?_intercalate {first : List α} {rest : List (List α)} (nonempty : first ≠ []) :
    ([sep].intercalate (first :: rest)).head? = first.head? := by
  cases rest with
  | nil => rw [intercalate_singleton]
  | cons next more =>
    rw [intercalate_cons_cons, append_assoc, head?_append]
    cases first with
    | nil => exact absurd rfl nonempty
    | cons x first => rfl

theorem getLast?_intercalate {last : List α} {front : List (List α)} (nonempty : last ≠ []) :
    ([sep].intercalate (front ++ [last])).getLast? = last.getLast? := by
  obtain ⟨init, x, rfl⟩ := eq_nil_or_concat last |>.resolve_left nonempty
  induction front with
  | nil => rw [nil_append, intercalate_singleton]
  | cons piece rest ih =>
    rw [cons_append, intercalate_cons_of_ne_nil (by simp), getLast?_append, ih]
    simp

/-! ## Cutting -/

theorem clean_of_mem_splitOnP (among : piece ∈ xs.splitOnP p) : ∀ x ∈ piece, p x = false := by
  induction xs generalizing piece with
  | nil =>
    rw [splitOnP_nil, mem_singleton] at among
    simp [among]
  | cons y rest ih =>
    rw [splitOnP_cons_eq_if_modifyHead] at among
    split at among
    · rcases mem_cons.mp among with rfl | later
      · simp
      · exact ih later
    · rename_i isPlain
      cases cut : rest.splitOnP p with
      | nil => exact absurd cut (splitOnP_ne_nil _ _)
      | cons first more =>
        rw [cut, modifyHead_cons, mem_cons] at among
        rcases among with rfl | later
        · intro x within
          rcases mem_cons.mp within with rfl | within
          · simpa using isPlain
          · exact ih (cut ▸ mem_cons_self) x within
        · exact ih (cut ▸ mem_cons_of_mem _ later)

theorem length_splitOnP : (xs.splitOnP p).length = xs.countP p + 1 := by
  induction xs with
  | nil => rfl
  | cons y rest ih =>
    rw [splitOnP_cons_eq_if_modifyHead, countP_cons]
    split
    · rw [length_cons, ih]
    · rw [length_modifyHead, ih, Nat.add_zero]

/-- The first piece is what stands before the first separator. -/
theorem exists_splitOnP_eq_cons (p : α → Bool) (xs : List α) :
    ∃ rest, xs.splitOnP p = (xs.takeWhile fun x => !p x) :: rest := by
  induction xs with
  | nil => exact ⟨[], rfl⟩
  | cons y rest ih =>
    obtain ⟨more, cut⟩ := ih
    rw [splitOnP_cons_eq_if_modifyHead]
    cases isSep : p y with
    | true => exact ⟨_, by simp [isSep]; rfl⟩
    | false => exact ⟨more, by simp [isSep, cut]⟩

/-- One more element is a separator, or goes on with the last piece. -/
theorem exists_splitOnP_concat (p : α → Bool) (xs : List α) (x : α) :
    ∃ front last, xs.splitOnP p = front ++ [last] ∧
      (xs ++ [x]).splitOnP p = if p x then front ++ [last, []] else front ++ [last ++ [x]] := by
  induction xs with
  | nil => exact ⟨[], [], rfl, by simp [splitOnP_cons_eq_if_modifyHead]⟩
  | cons y rest ih =>
    obtain ⟨front, last, cut, longer⟩ := ih
    simp only [cons_append, splitOnP_cons_eq_if_modifyHead, longer, cut]
    cases p y with
    | true => exact ⟨[] :: front, last, rfl, by cases p x <;> simp⟩
    | false =>
      cases front with
      | nil => exact ⟨[], y :: last, rfl, by cases p x <;> simp⟩
      | cons first front => exact ⟨(y :: first) :: front, last, rfl, by cases p x <;> simp⟩

/-- Cutting a part of a list gives parts of the pieces. -/
theorem infix_of_mem_splitOnP (part : xs <:+: ys) (among : piece ∈ xs.splitOnP p) :
    ∃ whole ∈ ys.splitOnP p, piece <:+: whole := by
  obtain ⟨front, back, rfl⟩ := part
  have behind : ∃ whole ∈ (xs ++ back).splitOnP p, piece <:+: whole := by
    induction back using List.reverseRecOn with
    | nil => exact ⟨piece, by rwa [append_nil], infix_rfl⟩
    | append_singleton back x ih =>
      obtain ⟨whole, isPiece, within⟩ := ih
      obtain ⟨front, last, cut, longer⟩ := exists_splitOnP_concat p (xs ++ back) x
      rw [cut, mem_append, mem_singleton] at isPiece
      rw [← append_assoc, longer]
      rcases isPiece with earlier | rfl
      · exact ⟨whole, by split <;> exact mem_append_left _ earlier, within⟩
      · split
        · exact ⟨whole, by simp, within⟩
        · exact ⟨_, mem_append_right _ mem_cons_self, within.trans (infix_append' [] _ [x])⟩
  rw [append_assoc]
  induction front with
  | nil => exact behind
  | cons y front ih =>
    obtain ⟨whole, isPiece, within⟩ := ih
    rw [cons_append, splitOnP_cons_eq_if_modifyHead]
    split
    · exact ⟨whole, mem_cons_of_mem _ isPiece, within⟩
    · cases cut : (front ++ (xs ++ back)).splitOnP p with
      | nil => exact absurd cut (splitOnP_ne_nil _ _)
      | cons first more =>
        rw [cut, mem_cons] at isPiece
        rw [modifyHead_cons]
        rcases isPiece with rfl | later
        · exact ⟨_, mem_cons_self, within.trans (infix_cons infix_rfl)⟩
        · exact ⟨whole, mem_cons_of_mem _ later, within⟩

/-- The last piece is what stands behind the last separator. -/
theorem exists_splitOnP_eq_concat (p : α → Bool) (xs : List α) :
    ∃ front, xs.splitOnP p = front ++ [xs.rtakeWhile fun x => !p x] := by
  induction xs using List.reverseRecOn with
  | nil => exact ⟨[], rfl⟩
  | append_singleton rest x ih =>
    obtain ⟨front, cut⟩ := ih
    obtain ⟨others, last, cutAgain, longer⟩ := exists_splitOnP_concat p rest x
    rw [longer]
    cases isSep : p x with
    | true =>
      rw [rtakeWhile_concat_neg _ _ _ (by simp [isSep])]
      exact ⟨others ++ [last], by simp⟩
    | false =>
      rw [rtakeWhile_concat_pos _ _ _ (by simp [isSep])]
      have same := append_inj' (cut.symm.trans cutAgain) rfl
      exact ⟨others, by simp [singleton_inj.mp same.2]⟩

end Kuku.Theory.Segments
