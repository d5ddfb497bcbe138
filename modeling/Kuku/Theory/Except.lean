/-
# Theory.Except -- computations that may fail

A checked pass over a list succeeds exactly when every step does, and its results are the
steps' results in order (`mapM_ok_iff`).
-/
import Mathlib

namespace Kuku.Theory

open List

variable {ε α β : Type}

theorem bind_ok {computation : Except ε α} {next : α → Except ε β} {result : β} :
    computation >>= next = .ok result ↔
      ∃ value, computation = .ok value ∧ next value = .ok result := by
  constructor
  · intro accepted
    cases computation with
    | error error => cases accepted
    | ok value => exact ⟨value, rfl, accepted⟩
  · rintro ⟨value, rfl, accepted⟩
    exact accepted

theorem check_bind_ok {check : Except ε PUnit} {next : PUnit → Except ε β} {result : β} :
    check >>= next = .ok result ↔ check = .ok () ∧ next () = .ok result := by
  constructor
  · intro accepted
    obtain ⟨⟨⟩, isChecked, continues⟩ := bind_ok.mp accepted
    exact ⟨isChecked, continues⟩
  · rintro ⟨isChecked, continues⟩
    exact bind_ok.mpr ⟨(), isChecked, continues⟩

/-- An early error, and what comes after it. -/
theorem guard_ok {c : Prop} [Decidable c] {error : ε} {next : α → Except ε β}
    {rest : Except ε β} {result : β} :
    (if c then (Except.error error : Except ε α) >>= next else rest) = .ok result ↔
      ¬ c ∧ rest = .ok result := by
  split_ifs with holds
  · exact ⟨fun accepted => (nomatch accepted), fun accepted => absurd holds accepted.1⟩
  · exact ⟨fun accepted => ⟨holds, accepted⟩, fun accepted => accepted.2⟩

theorem bind_congr_of_ok {computation : Except ε α} {next next' : α → Except ε β}
    (same : ∀ value, computation = .ok value → next value = next' value) :
    computation >>= next = computation >>= next' := by
  cases computation with
  | error error => rfl
  | ok value => exact same value rfl

variable {f : α → Except ε β} {xs : List α}

theorem mapM_ok_iff {ys : List β} :
    xs.mapM f = .ok ys ↔ List.Forall₂ (fun x y => f x = .ok y) xs ys := by
  induction xs generalizing ys with
  | nil =>
    constructor
    · rintro ⟨⟩
      exact .nil
    · intro related
      cases related
      rfl
  | cons x xs ih =>
    rw [mapM_cons]
    constructor
    · intro accepted
      obtain ⟨y, isFirst, rest⟩ := bind_ok.mp accepted
      obtain ⟨tail, isRest, isResult⟩ := bind_ok.mp rest
      cases isResult
      exact .cons isFirst (ih.mp isRest)
    · intro related
      cases related with
      | cons isFirst isRest =>
        exact bind_ok.mpr ⟨_, isFirst, bind_ok.mpr ⟨_, ih.mpr isRest, rfl⟩⟩

/-- Every step succeeds. -/
theorem mapM_ok_of_forall (all : ∀ x ∈ xs, ∃ y, f x = .ok y) : ∃ ys, xs.mapM f = .ok ys := by
  induction xs with
  | nil => exact ⟨[], rfl⟩
  | cons x xs ih =>
    obtain ⟨y, isFirst⟩ := all x mem_cons_self
    obtain ⟨ys, isRest⟩ := ih fun x' member => all x' (mem_cons_of_mem x member)
    exact ⟨y :: ys, mapM_ok_iff.mpr (.cons isFirst (mapM_ok_iff.mp isRest))⟩

section Related

variable {γ : Type} {R : α → β → Prop} {S : β → γ → Prop} {xs : List α} {ys : List β}
  {zs : List γ}

theorem forall₂_exists_right (related : List.Forall₂ R xs ys) {x : α} (member : x ∈ xs) :
    ∃ y ∈ ys, R x y := by
  induction related with
  | nil => cases member
  | cons isFirst _ ih =>
    rcases mem_cons.mp member with rfl | isRest
    · exact ⟨_, mem_cons_self, isFirst⟩
    · obtain ⟨y, isMember, isRelated⟩ := ih isRest
      exact ⟨y, mem_cons_of_mem _ isMember, isRelated⟩

theorem forall₂_exists_left (related : List.Forall₂ R xs ys) {y : β} (member : y ∈ ys) :
    ∃ x ∈ xs, R x y :=
  forall₂_exists_right related.flip member

theorem forall₂_trans (first : List.Forall₂ R xs ys) (second : List.Forall₂ S ys zs) :
    List.Forall₂ (fun x z => ∃ y, R x y ∧ S y z) xs zs := by
  induction first generalizing zs with
  | nil =>
    cases second
    exact .nil
  | cons isFirst _ ih =>
    cases second with
    | cons isSecond rest => exact .cons ⟨_, isFirst, isSecond⟩ (ih rest)

end Related

theorem mapM_ok_left {ys : List β} (ran : xs.mapM f = .ok ys) {x : α} (member : x ∈ xs) :
    ∃ y ∈ ys, f x = .ok y :=
  forall₂_exists_right (mapM_ok_iff.mp ran) member

theorem mapM_ok_right {ys : List β} (ran : xs.mapM f = .ok ys) {y : β} (member : y ∈ ys) :
    ∃ x ∈ xs, f x = .ok y :=
  forall₂_exists_left (mapM_ok_iff.mp ran) member

/-- A pass of checks succeeds exactly when every check does. -/
theorem forM_ok_iff {check : α → Except ε PUnit} :
    forM xs check = .ok () ↔ ∀ x ∈ xs, check x = .ok () := by
  induction xs with
  | nil => exact ⟨fun _ x member => (nomatch member), fun _ => rfl⟩
  | cons x xs ih => rw [forM_cons, check_bind_ok, ih, forall_mem_cons]

/-- A pass fails with the error of one of its steps. -/
theorem mapM_error {error : ε} (failed : xs.mapM f = .error error) :
    ∃ x ∈ xs, f x = .error error := by
  induction xs with
  | nil => cases failed
  | cons x xs ih =>
    rw [mapM_cons] at failed
    cases isFirst : f x with
    | error first =>
      rw [isFirst] at failed
      cases failed
      exact ⟨x, mem_cons_self, isFirst⟩
    | ok y =>
      rw [isFirst] at failed
      cases isRest : xs.mapM f with
      | error later =>
        rw [isRest] at failed
        cases failed
        obtain ⟨x', member, isStep⟩ := ih isRest
        exact ⟨x', mem_cons_of_mem x member, isStep⟩
      | ok ys =>
        rw [isRest] at failed
        cases failed

end Kuku.Theory
