/-
# Theory.Runs -- runs of a labelled system, and what every step preserves

A `System` has start states and labelled steps.  `ReachableBy ok` collects the
states of the runs all of whose steps meet `ok`, a condition on the state before
a step and on its label; `Reachable` is the case with no condition.

* `ReachableBy.invariant` is the one induction over runs: a predicate that holds
  at the start and that every step meeting `ok` preserves holds in every state
  such a run reaches.
* `ofStep` makes a system of an executable partial step function, and `run`
  executes a list of labels, so a concrete run is a computation
  (`reachable_of_run`, and `reachableBy_of_runWhile` under an executable condition).
-/
import Mathlib

namespace Kuku.Theory

open List Option

universe u v

/-- Start states and labelled steps. -/
structure System (σ : Type u) (ℓ : Type v) where
  start : σ → Prop
  step : σ → ℓ → σ → Prop

namespace System

variable {σ : Type u} {ℓ : Type v}

/-- The states of the runs whose steps all meet `ok`. -/
inductive ReachableBy (M : System σ ℓ) (ok : σ → ℓ → Prop) : σ → Prop
  | start {s : σ} (starts : M.start s) : ReachableBy M ok s
  | step {s s' : σ} {l : ℓ} (before : ReachableBy M ok s) (allowed : ok s l)
      (steps : M.step s l s') : ReachableBy M ok s'

/-- The states of all runs. -/
abbrev Reachable (M : System σ ℓ) : σ → Prop := M.ReachableBy fun _ _ => True

variable {ok : σ → ℓ → Prop} {M : System σ ℓ}

/-- **The invariant rule.** -/
theorem ReachableBy.invariant {inv : σ → Prop} (initial : ∀ s, M.start s → inv s)
    (preserved : ∀ s l s', inv s → ok s l → M.step s l s' → inv s') {s : σ}
    (reached : M.ReachableBy ok s) : inv s := by
  induction reached with
  | start starts => exact initial _ starts
  | step _ allowed steps ih => exact preserved _ _ _ ih allowed steps

/-- The rule with the invariant named. -/
theorem ReachableBy.keeps (inv : σ → Prop) (initial : ∀ s, M.start s → inv s)
    (preserved : ∀ s l s', inv s → ok s l → M.step s l s' → inv s') {s : σ}
    (reached : M.ReachableBy ok s) : inv s :=
  reached.invariant initial preserved

/-- A weaker condition has more runs. -/
theorem ReachableBy.mono {ok ok' : σ → ℓ → Prop} (weaker : ∀ s l, ok s l → ok' s l) {s : σ}
    (reached : M.ReachableBy ok s) :
    M.ReachableBy ok' s := by
  induction reached with
  | start starts => exact .start starts
  | step _ allowed steps ih => exact .step ih (weaker _ _ allowed) steps

/-- A system whose steps are computed by a partial function. -/
def ofStep (start : σ → Prop) (next : σ → ℓ → Option σ) : System σ ℓ where
  start
  step s l s' := next s l = some s'

/-- Execute a list of labels. -/
def run (next : σ → ℓ → Option σ) : σ → List ℓ → Option σ
  | s, [] => some s
  | s, l :: ls => (next s l).bind fun s' => run next s' ls

theorem run_cons (next : σ → ℓ → Option σ) (s : σ) (l : ℓ) (ls : List ℓ) :
    run next s (l :: ls) = (next s l).bind fun s' => run next s' ls :=
  rfl

theorem run_append (next : σ → ℓ → Option σ) (s : σ) (first later : List ℓ) :
    run next s (first ++ later) = (run next s first).bind fun s' => run next s' later := by
  induction first generalizing s with
  | nil => rfl
  | cons l ls ih =>
    simp only [cons_append, run, bind_assoc]
    congr 1
    funext s'
    exact ih s'

/-- Execute a list of labels, each of them allowed. -/
def runWhile (ok : σ → ℓ → Bool) (next : σ → ℓ → Option σ) : σ → List ℓ → Option σ :=
  run fun s l => if ok s l then next s l else none

variable {next : σ → ℓ → Option σ} {start : σ → Prop}

theorem reachableBy_of_runWhile {ok : σ → ℓ → Bool} {s s' : σ} {ls : List ℓ}
    (reached : (ofStep start next).ReachableBy (fun s l => ok s l) s)
    (ran : runWhile ok next s ls = some s') :
    (ofStep start next).ReachableBy (fun s l => ok s l) s' := by
  induction ls generalizing s with
  | nil =>
    cases ran
    exact reached
  | cons l ls ih =>
    simp only [runWhile, run, bind_eq_some_iff] at ran
    obtain ⟨middle, stepped, rest⟩ := ran
    split at stepped
    · rename_i allowed
      exact ih (.step reached allowed stepped) rest
    · cases stepped

/-- A run whose labels are allowed in every state. -/
theorem ReachableBy.run {s s' : σ} {ls : List ℓ} (reached : (ofStep start next).ReachableBy ok s)
    (allowed : ∀ l ∈ ls, ∀ s, ok s l) (ran : System.run next s ls = some s') :
    (ofStep start next).ReachableBy ok s' := by
  induction ls generalizing s with
  | nil =>
    cases ran
    exact reached
  | cons l ls ih =>
    simp only [System.run, bind_eq_some_iff] at ran
    obtain ⟨middle, stepped, rest⟩ := ran
    exact ih (.step reached (allowed l mem_cons_self s) stepped)
      (fun l' member => allowed l' (mem_cons_of_mem l member)) rest

theorem reachable_of_run {s s' : σ} {ls : List ℓ} (reached : (ofStep start next).Reachable s)
    (ran : run next s ls = some s') :
    (ofStep start next).Reachable s' :=
  reached.run (fun _ _ _ => trivial) ran

end System

end Kuku.Theory
