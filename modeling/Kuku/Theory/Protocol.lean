/-
# Theory.Protocol -- programs that keep to a protocol, and what follows of their runs

A `Protocol` says of an agent, by how far it has come, which call it may make next and
how far it has come after the answer.  A program keeps to it whatever the answers are:
this is `Prog.Holds` alone, with the stages of the protocol as the states.

* `Machine.follows`: when every command's program keeps to the protocol, every agent is
  at a stage that permits its next call, in every state a run reaches.
* `Machine.invariant`: a predicate on what the agents share is kept by a run when every
  permitted call keeps it.
-/
import Kuku.Theory.Program

namespace Kuku.Theory

open Function Prog Option

/-- The stages of an agent, the calls each permits, and the answers a call can have. -/
structure Protocol (τ : Type) {Op : Type} (Res : Op → Type) (ε : Type) where
  permits : τ → Op → Prop
  after : τ → (op : Op) → Except ε (Res op) → τ
  answers : (op : Op) → Except ε (Res op) → Prop

namespace Protocol

variable {τ Op : Type} {Res : Op → Type} {ε α β : Type} (P : Protocol τ Res ε)

/-- A program alone with the stages of the protocol. -/
def context : Prog.Context ((op : Op) → Except ε (Res op)) τ Res ε :=
  alone (fun op how stage => (how op, P.after stage op (how op)))
    (fun _ op how => P.answers op (how op)) P.permits

/-- A program keeps to the protocol from a stage, and ends as `post` says. -/
def Keeps (post : Except ε α → τ → Prop) (p : Prog Res ε α) (stage : τ) : Prop :=
  p.Holds P.context post stage

variable {P} {stage : τ} {post : Except ε α → τ → Prop}

theorem Keeps.pure {value : α} (isPost : post (.ok value) stage) :
    P.Keeps post (Pure.pure value : Prog Res ε α) stage :=
  Prog.holds_pure.mpr isPost

theorem Keeps.throw {error : ε} (isPost : post (.error error) stage) :
    P.Keeps post (throw error : Prog Res ε α) stage :=
  Prog.holds_throw.mpr isPost

theorem Keeps.ofExcept {result : Except ε α} (isPost : post result stage) :
    P.Keeps post (ofExcept result : Prog Res ε α) stage := by
  cases result with
  | ok value => exact Keeps.pure isPost
  | error error => exact Keeps.throw isPost

variable {p : Prog Res ε α}

theorem Keeps.mono {post' : Except ε α → τ → Prop} (keeps : P.Keeps post p stage)
    (weaker : ∀ answer stage, post answer stage → post' answer stage) :
    P.Keeps post' p stage :=
  Prog.Holds.mono keeps weaker

/-- A program and the program after it. -/
theorem Keeps.bind {f : α → Prog Res ε β} {post : Except ε β → τ → Prop} (keeps : P.Keeps (fun
      | .ok value, stage => P.Keeps post (f value) stage
      | .error error, stage => post (.error error) stage) p stage) :
    P.Keeps post (p >>= f) stage :=
  Prog.Holds.bind (Prog.Holds.mono keeps fun answer _ kept => by
    cases answer <;> exact kept)

/-- A program whose error the next one looks at. -/
theorem Keeps.catching {f : Except ε α → Prog Res ε β} {post : Except ε β → τ → Prop}
    (keeps : P.Keeps (fun answer stage => P.Keeps post (f answer) stage) p stage) :
    P.Keeps post (p.catching >>= f) stage :=
  Prog.Holds.bind (Prog.Holds.catching keeps)

/-- A call and the program after it. -/
theorem Keeps.call {op : Op} {f : Res op → Prog Res ε β} {post : Except ε β → τ → Prop}
    (permitted : P.permits stage op)
    (fails : ∀ error, P.answers op (.error error) → post (.error error) (P.after stage op (.error error)))
    (continues : ∀ value, P.answers op (.ok value) →
      P.Keeps post (f value) (P.after stage op (.ok value))) :
    P.Keeps post (perform op >>= f) stage := by
  refine Prog.holds_call.mpr ?_
  rintro _ rfl -
  refine ⟨permitted, ?_⟩
  intro how (answered : P.answers op (how op))
  dsimp only [context, alone] at answered ⊢
  cases isAnswer : how op with
  | ok value => exact continues value (isAnswer ▸ answered)
  | error error => exact Prog.holds_throw.mpr (fails error (isAnswer ▸ answered))

theorem Keeps.lastCall {op : Op} {post : Except ε (Res op) → τ → Prop}
    (permitted : P.permits stage op)
    (ends : ∀ answer, P.answers op answer → post answer (P.after stage op answer)) :
    P.Keeps post (perform op) stage := by
  rw [← bind_pure (perform op)]
  exact Keeps.call permitted (fun error answered => ends _ answered)
    (fun value answered => Keeps.pure (ends _ answered))

end Protocol

/-! ## Runs -/

namespace Machine

variable {σ ι κ η ω τ : Type} {Op : Type} {Res : Op → Type} {ε α : Type} [DecidableEq ι]
  (M : Machine σ ι κ η ω Res ε α) (P : Protocol τ Res ε)

/-- Every agent has a stage: its calls take it to the next, and nobody else moves it. -/
structure Follows (stage : ι → σ → τ) (post : Except ε α → τ → Prop) : Prop where
  answers : ∀ agent op how s, P.answers op (M.exec agent op how s).1
  advances : ∀ agent op how s, stage agent (M.exec agent op how s).2 =
    P.after (stage agent s) op (M.exec agent op how s).1
  others : ∀ agent other op how s, other ≠ agent →
    stage other (M.exec agent op how s).2 = stage other s
  crashes : ∀ agent other s, other ≠ agent → stage other (M.crash agent s) = stage other s
  env : ∀ agent event s s', M.env event s = some s' → stage agent s' = stage agent s
  starts : ∀ agent command start, P.Keeps post (M.program agent command) start

variable {M P} {stage : ι → σ → τ} {post : Except ε α → τ → Prop} {init : σ → Prop}
  {C : Condition σ ι κ η ω Op} {c : Config σ ι Res ε α}

variable (follows : M.Follows P stage post)

include follows

/-- **A running program keeps to the protocol from the stage its agent is at.** -/
theorem Follows.running (reached : (M.system init).ReachableBy C.meets c) {agent : ι}
    {p : Prog Res ε α} (isRunning : c.running agent = some p) :
    P.Keeps post p (stage agent c.shared) := by
  induction reached generalizing agent p with
  | start starts => exact absurd isRunning (by simp [starts.2 agent])
  | step before meets steps ih =>
    rename_i c c' label
    cases label with
    | start starter command =>
      simp only [system, System.ofStep, next] at steps
      split at steps <;> cases steps
      by_cases same : agent = starter
      · subst same
        simp only [update_self, Option.some.injEq] at isRunning
        subst isRunning
        exact follows.starts agent command _
      · simp only [update_of_ne same] at isRunning
        exact ih isRunning
    | call caller how =>
      simp only [system, System.ofStep, next] at steps
      split at steps <;> cases steps
      rename_i op rest wasRunning
      by_cases same : agent = caller
      · subst same
        simp only [update_self, Option.some.injEq] at isRunning
        subst isRunning
        have kept := (Prog.holds_call.mp (ih wasRunning) _ rfl trivial).2
          (fun other => (M.exec agent other how c.shared).1)
          (follows.answers agent op how c.shared)
        dsimp only
        rw [follows.advances agent op how c.shared]
        exact kept
      · simp only [update_of_ne same] at isRunning
        dsimp only
        rw [follows.others caller agent op how c.shared same]
        exact ih isRunning
    | finish finisher =>
      simp only [system, System.ofStep, next] at steps
      split at steps <;> cases steps
      by_cases same : agent = finisher
      · subst same
        simp only [update_self] at isRunning
        cases isRunning
      · simp only [update_of_ne same] at isRunning
        exact ih isRunning
    | crash crasher =>
      cases steps
      by_cases same : agent = crasher
      · subst same
        simp only [update_self] at isRunning
        cases isRunning
      · simp only [update_of_ne same] at isRunning
        dsimp only
        rw [follows.crashes crasher agent c.shared same]
        exact ih isRunning
    | env event =>
      obtain ⟨shared, acted, rfl⟩ := map_eq_some_iff.mp steps
      dsimp only
      rw [follows.env agent event c.shared shared acted]
      exact ih isRunning

/-- **An agent's next call is permitted.** -/
theorem Follows.permitted (reached : (M.system init).ReachableBy C.meets c) {agent : ι} {op : Op}
    {rest : Except ε (Res op) → Prog Res ε α} (isRunning : c.running agent = some (.call op rest)) :
    P.permits (stage agent c.shared) op :=
  (Prog.holds_call.mp (follows.running reached isRunning) _ rfl trivial).1

/-- **An invariant of what the agents share**, kept by the calls the protocol permits. -/
theorem Follows.invariant {inv : σ → Prop} (initial : ∀ s, init s → inv s)
    (calls : ∀ agent op how s, inv s → C.call agent s op how → P.permits (stage agent s) op →
      inv (M.exec agent op how s).2) (crashes : ∀ agent s, inv s → inv (M.crash agent s))
    (env : ∀ event s s', inv s → C.env s event → M.env event s = some s' → inv s')
    (reached : (M.system init).ReachableBy C.meets c) : inv c.shared := by
  induction reached with
  | start starts => exact initial _ starts.1
  | step before meets steps ih =>
    rename_i c c' label
    cases label with
    | start starter command =>
      simp only [system, System.ofStep, next] at steps
      split at steps <;> cases steps
      exact ih
    | call caller how =>
      simp only [system, System.ofStep, next] at steps
      split at steps <;> cases steps
      rename_i op rest isRunning
      exact calls caller op how c.shared ih (meets op rest isRunning)
        (follows.permitted before isRunning)
    | finish finisher =>
      simp only [system, System.ofStep, next] at steps
      split at steps <;> cases steps
      exact ih
    | crash crasher =>
      cases steps
      exact crashes crasher c.shared ih
    | env event =>
      obtain ⟨shared, acted, rfl⟩ := map_eq_some_iff.mp steps
      exact env event c.shared shared ih meets acted

end Machine

/-! ## Runs that are computed -/

namespace Machine

variable {σ ι κ η ω : Type} {Op : Type} {Res : Op → Type} {ε α : Type}
  {C : Condition σ ι κ η ω Op}

/-- A condition on calls and events, computed in the state before the step. -/
def checks (call : ι → σ → Op → η → Bool) (event : σ → ω → Bool) (c : Config σ ι Res ε α) :
    Label ι κ η ω → Bool
  | .call agent how =>
    match c.running agent with
    | some (.call op _) => call agent c.shared op how
    | _ => true
  | .env acted => event c.shared acted
  | _ => true

theorem meets_of_checks {call : ι → σ → Op → η → Bool} {event : σ → ω → Bool}
    (starts : ∀ agent s command, C.start agent s command)
    (calls : ∀ agent s op how, call agent s op how = true → C.call agent s op how)
    (events : ∀ s acted, event s acted = true → C.env s acted) (c : Config σ ι Res ε α)
    (label : Label ι κ η ω) (checked : checks call event c label = true) : C.meets c label := by
  cases label with
  | start agent command => exact starts agent c.shared command
  | call agent how =>
    intro op rest isRunning
    simp only [checks, isRunning] at checked
    exact calls agent c.shared op how checked
  | finish agent => trivial
  | crash agent => trivial
  | env acted => exact events c.shared acted checked

/-- **A computed run** whose steps are checked is a run of the condition. -/
theorem reachable_of_checks [DecidableEq ι] {M : Machine σ ι κ η ω Res ε α} {init : σ → Prop}
    {call : ι → σ → Op → η → Bool} {event : σ → ω → Bool}
    (starts : ∀ agent s command, C.start agent s command)
    (calls : ∀ agent s op how, call agent s op how = true → C.call agent s op how)
    (events : ∀ s acted, event s acted = true → C.env s acted) {c c' : Config σ ι Res ε α}
    (isStart : init c.shared ∧ ∀ agent, c.running agent = none) {labels : List (Label ι κ η ω)}
    (ran : System.runWhile (checks call event) M.next c labels = some c') :
    (M.system init).ReachableBy C.meets c' := by
  have reached : (System.ofStep (fun c => init c.shared ∧ ∀ agent, c.running agent = none)
      M.next).ReachableBy (fun c label => checks call event c label = true) c' :=
    System.reachableBy_of_runWhile (.start isStart) ran
  exact System.ReachableBy.mono (meets_of_checks starts calls events) reached

end Machine

end Kuku.Theory
