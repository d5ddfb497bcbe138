/-
# Theory.Slots -- what is going on, by its name

A server or a process has calls going on, each under a name; a slot without one is empty.
`Every` says something of each call that is going on.  Filling or emptying one slot leaves the
others alone.
-/
import Mathlib

namespace Kuku.Theory

open Function

variable {ι α : Type}

abbrev Slots (ι α : Type) := ι → Option α

namespace Slots

def Every (P : ι → α → Prop) (slots : Slots ι α) : Prop := ∀ i a, slots i = some a → P i a

variable {P Q : ι → α → Prop} {slots : Slots ι α} {i : ι} {a : α}

theorem Every.mono (every : Every P slots) (weaker : ∀ i a, slots i = some a → P i a → Q i a) :
    Every Q slots :=
  fun i a isHeld => weaker i a isHeld (every i a isHeld)

@[simp] theorem every_empty : Every P (fun _ => none) := fun _ _ isHeld => nomatch isHeld

variable [DecidableEq ι]

theorem Every.fill (every : Every P slots) (holds : P i a) :
    Every P (Function.update slots i (some a)) := by
  intro j b isHeld
  by_cases same : j = i
  · subst same
    rw [update_self] at isHeld
    cases isHeld
    exact holds
  · rw [update_of_ne same] at isHeld
    exact every j b isHeld

theorem Every.clear (every : Every P slots) (i : ι) : Every P (Function.update slots i none) := by
  intro j b isHeld
  by_cases same : j = i
  · subst same
    rw [update_self] at isHeld
    cases isHeld
  · rw [update_of_ne same] at isHeld
    exact every j b isHeld

/-! ## Keys that no two slots share -/

section Keys

variable {κ : Type} {key : α → Option κ}

/-- No two slots hold the same key. -/
def Apart (key : α → Option κ) (slots : Slots ι α) : Prop :=
  ∀ i j a b k, slots i = some a → slots j = some b → key a = some k → key b = some k → i = j

omit [DecidableEq ι] in
@[simp] theorem apart_empty : Apart key (fun _ : ι => none) :=
  fun _ _ _ _ _ isHeld => nomatch isHeld

/-- A slot whose key no other slot holds. -/
theorem Apart.fill (apart : Apart key slots)
    (fresh : ∀ k, key a = some k → ∀ j b, j ≠ i → slots j = some b → key b ≠ some k) :
    Apart key (Function.update slots i (some a)) := by
  intro j l b c k isB isC keyB keyC
  by_cases atJ : j = i
  · subst atJ
    rw [update_self] at isB
    cases isB
    by_cases atL : l = j
    · exact atL.symm
    · rw [update_of_ne atL] at isC
      exact absurd keyC (fresh k keyB l c atL isC)
  · rw [update_of_ne atJ] at isB
    by_cases atL : l = i
    · subst atL
      rw [update_self] at isC
      cases isC
      exact absurd keyB (fresh k keyC j b atJ isB)
    · rw [update_of_ne atL] at isC
      exact apart j l b c k isB isC keyB keyC

theorem Apart.clear (apart : Apart key slots) (i : ι) :
    Apart key (Function.update slots i none) := by
  intro j l b c k isB isC keyB keyC
  have others : ∀ j b, Function.update slots i none j = some b → slots j = some b := by
    intro j b isB
    by_cases same : j = i
    · subst same
      rw [update_self] at isB
      cases isB
    · rwa [update_of_ne same] at isB
  exact apart j l b c k (others j b isB) (others l c isC) keyB keyC

end Keys

end Slots

end Kuku.Theory
