/-
# Theory.Paging -- reading a sequence on from the last key

A sequence is sorted by a key, and a reader that has read a beginning of it asks for what comes
after the last key it has seen.  That is the rest of the sequence (`filter_after`), whatever has
been appended to it since, and the last key grows with every item (`lastKey_lt`).
-/
import Mathlib

namespace Kuku.Theory.Paging

open List

variable {γ : Type} (key : γ → Int)

/-- The last key that has been read; nothing read is key `0`. -/
def lastKey (seen : List γ) : Int := (seen.getLast?.map key).getD 0

def Increasing (xs : List γ) : Prop := xs.Pairwise fun a b => key a < key b

variable {key} {seen page rest : List γ} {x : γ}

@[simp] theorem lastKey_nil : lastKey key [] = 0 := rfl

@[simp] theorem lastKey_append_singleton : lastKey key (seen ++ [x]) = key x := by
  rw [lastKey, getLast?_append]
  rfl

theorem lastKey_append (nonempty : page ≠ []) : lastKey key (seen ++ page) = lastKey key page := by
  obtain ⟨init, last, rfl⟩ := eq_nil_or_concat page |>.resolve_left nonempty
  rw [concat_eq_append, ← append_assoc, lastKey_append_singleton, lastKey_append_singleton]

theorem le_lastKey (increasing : Increasing key seen) (among : x ∈ seen) :
    key x ≤ lastKey key seen := by
  rcases eq_nil_or_concat seen with rfl | ⟨init, last, rfl⟩
  · cases among
  · rw [concat_eq_append] at increasing among ⊢
    rw [lastKey_append_singleton]
    rcases mem_append.mp among with before | isLast
    · exact ((pairwise_append.mp increasing).2.2 x before last mem_cons_self).le
    · exact (congrArg key (mem_singleton.mp isLast)).le

theorem lastKey_lt (increasing : Increasing key (seen ++ rest))
    (positive : ∀ x ∈ rest, 0 < key x) (among : x ∈ rest) : lastKey key seen < key x := by
  rcases eq_nil_or_concat seen with rfl | ⟨init, last, rfl⟩
  · exact positive x among
  · rw [concat_eq_append] at increasing ⊢
    rw [lastKey_append_singleton]
    exact (pairwise_append.mp increasing).2.2 last (mem_append_right _ mem_cons_self) x among

/-- **What comes after the last key is the rest.** -/
theorem filter_after (increasing : Increasing key (seen ++ rest))
    (positive : ∀ x ∈ rest, 0 < key x) :
    ((seen ++ rest).filter fun x => lastKey key seen < key x) = rest := by
  have isSeen : (seen.filter fun x => lastKey key seen < key x) = [] := by
    refine filter_eq_nil_iff.mpr fun x among => ?_
    have ordered : Increasing key seen := increasing.sublist (sublist_append_left _ _)
    exact fun later => absurd (of_decide_eq_true later) (not_lt.mpr (le_lastKey ordered among))
  have isRest : (rest.filter fun x => lastKey key seen < key x) = rest :=
    filter_eq_self.mpr fun x among => decide_eq_true (lastKey_lt increasing positive among)
  rw [filter_append, isSeen, isRest, nil_append]

theorem lastKey_lt_append (increasing : Increasing key (seen ++ page))
    (positive : ∀ x ∈ page, 0 < key x) (nonempty : page ≠ []) :
    lastKey key seen < lastKey key (seen ++ page) := by
  obtain ⟨init, last, rfl⟩ := eq_nil_or_concat page |>.resolve_left nonempty
  rw [concat_eq_append] at increasing positive ⊢
  rw [← append_assoc, lastKey_append_singleton]
  exact lastKey_lt increasing positive (mem_append_right _ mem_cons_self)

end Kuku.Theory.Paging
