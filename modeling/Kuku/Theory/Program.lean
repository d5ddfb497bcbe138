/-
# Theory.Program -- programs of atomic calls, alone and among other agents

A client is a sequence of calls (to a server, a database, a file system), each of
them atomic, with everything else free to act between two of them.  A `Prog` is
such a sequence: it returns, throws, or makes a call and continues with the answer.

* `Prog.run` executes a program with nothing in between; `run_bind` and
  `run_perform` compute it call by call.
* `Prog.Holds` is the weakest precondition of a program under interference:
  before each call the others may do what `rely` says, the call must be one that
  `may` be made, and the rest continues from whatever the call did.  `Holds.bind`,
  `Holds.perform` and `Holds.mono` are its rules.
* `Prog.Only` says of a program which calls it makes at all; `Only.holds` is its rule.
* `Prog.Steps` are the runs of one program alone, left at any call.
* A `Machine` has any number of agents that start programs, make calls, finish or
  crash at any point, and an environment.  `Machine.safe` is the rule for its runs:
  what one agent may do the others rely on.
-/
import Kuku.Theory.Runs

namespace Kuku.Theory

open Function

/-- A program over the calls `Op`, whose answers have the types `Res`. -/
inductive Prog {Op : Type} (Res : Op → Type) (ε α : Type) : Type
  | pure (value : α)
  | throw (error : ε)
  | call (op : Op) (next : Except ε (Res op) → Prog Res ε α)

namespace Prog

variable {Op : Type} {Res : Op → Type} {ε α β σ : Type}

/-- Sequential composition; an error skips the rest. -/
def bind (f : α → Prog Res ε β) : Prog Res ε α → Prog Res ε β
  | .pure value => f value
  | .throw error => .throw error
  | .call op next => .call op fun answer => bind f (next answer)

instance : Monad (Prog Res ε) where
  pure := .pure
  bind p f := bind f p

/-- One call; its error is the program's. -/
def perform (op : Op) : Prog Res ε (Res op) :=
  .call op fun
    | .ok value => .pure value
    | .error error => .throw error

/-- A whole program whose error the rest looks at. -/
def catching : Prog Res ε α → Prog Res ε (Except ε α)
  | .pure value => .pure (.ok value)
  | .throw error => .pure (.error error)
  | .call op next => .call op fun answer => catching (next answer)

def ofExcept : Except ε α → Prog Res ε α
  | .ok value => .pure value
  | .error error => .throw error

@[simp] theorem call_bind (op : Op) (next : Except ε (Res op) → Prog Res ε α)
    (f : α → Prog Res ε β) :
    (Prog.call op next >>= f) = .call op fun answer => next answer >>= f := rfl

theorem bind_pure (p : Prog Res ε α) : p >>= Pure.pure = p := by
  induction p with
  | pure value => rfl
  | throw error => rfl
  | call op next ih =>
    rw [call_bind]
    congr 1
    funext answer
    exact ih answer

/-! ## A program alone -/

/-- Execute a program with nothing in between. -/
def run (exec : (op : Op) → σ → Except ε (Res op) × σ) : Prog Res ε α → σ → Except ε α × σ
  | .pure value, s => (.ok value, s)
  | .throw error, s => (.error error, s)
  | .call op next, s => run exec (next (exec op s).1) (exec op s).2

section Run

variable (exec : (op : Op) → σ → Except ε (Res op) × σ) (s : σ)

theorem run_bind (p : Prog Res ε α) (f : α → Prog Res ε β) :
    (p >>= f).run exec s =
      match p.run exec s with
      | (.ok value, s') => (f value).run exec s'
      | (.error error, s') => (.error error, s') := by
  induction p generalizing s with
  | pure value => rfl
  | throw error => rfl
  | call op next ih => exact ih (exec op s).1 (exec op s).2

/-- The composition, once the first part is known to return. -/
theorem run_bind_ok {p : Prog Res ε α} {value : α} {s s' : σ} (f : α → Prog Res ε β)
    (ran : p.run exec s = (.ok value, s')) : (p >>= f).run exec s = (f value).run exec s' := by
  rw [run_bind, ran]

/-- A program whose error is looked at never fails itself. -/
theorem run_catching (p : Prog Res ε α) :
    p.catching.run exec s = (.ok (p.run exec s).1, (p.run exec s).2) := by
  induction p generalizing s with
  | pure value => rfl
  | throw error => rfl
  | call op next ih => exact ih (exec op s).1 (exec op s).2

theorem run_perform {op : Op} {value : Res op} {s s' : σ} (answered : exec op s = (.ok value, s')) :
    (perform op : Prog Res ε (Res op)).run exec s = (.ok value, s') := by
  simp [perform, run, answered]

theorem run_ofExcept_ok {value : α} {result : Except ε α} (isOk : result = .ok value) :
    (ofExcept result : Prog Res ε α).run exec s = (.ok value, s) := by
  subst isOk
  rfl

end Run

/-! ## A program among others -/

/-- What a program relies on: the calls it may make, what a call does (`η` says how it
goes), the states it can be in, and what the others do in between. -/
structure Context (η σ : Type) {Op : Type} (Res : Op → Type) (ε : Type) where
  exec : (op : Op) → η → σ → Except ε (Res op) × σ
  allowed : σ → Op → η → Prop
  inv : σ → Prop
  rely : σ → σ → Prop
  may : σ → Op → Prop

variable {η : Type}

/-- **The weakest precondition under interference.** -/
def Holds (K : Context η σ Res ε) (post : Except ε α → σ → Prop) : Prog Res ε α → σ → Prop
  | .pure value, s => post (.ok value) s
  | .throw error, s => post (.error error) s
  | .call op next, s => ∀ s', K.rely s s' → K.inv s' → K.may s' op ∧
      ∀ how, K.allowed s' op how → Holds K post (next (K.exec op how s').1) (K.exec op how s').2

section Unfold

variable {K : Context η σ Res ε} {post : Except ε α → σ → Prop} {s : σ}

theorem holds_pure {value : α} : (Prog.pure value).Holds K post s ↔ post (.ok value) s := Iff.rfl

theorem holds_throw {error : ε} : (Prog.throw error).Holds K post s ↔ post (.error error) s :=
  Iff.rfl

theorem holds_call {op : Op} {next : Except ε (Res op) → Prog Res ε α} :
    (Prog.call op next).Holds K post s ↔ ∀ s', K.rely s s' → K.inv s' → K.may s' op ∧
      ∀ how, K.allowed s' op how →
        (next (K.exec op how s').1).Holds K post (K.exec op how s').2 := Iff.rfl

end Unfold

/-- A postcondition of a program that returns or stops. -/
def ends (stopped : σ → Prop) (returned : α → σ → Prop) : Except ε α → σ → Prop
  | .ok value, s => returned value s
  | .error _, s => stopped s

section Rules

variable {K : Context η σ Res ε} {post post' : Except ε α → σ → Prop} {s s' : σ}

variable {p : Prog Res ε α}

theorem Holds.mono (holds : p.Holds K post s) (weaker : ∀ answer s, post answer s → post' answer s) : p.Holds K post' s := by
  induction p generalizing s with
  | pure value => exact weaker _ _ holds
  | throw error => exact weaker _ _ holds
  | call op next ih =>
    intro s' relied isInv
    obtain ⟨isMay, continues⟩ := holds s' relied isInv
    exact ⟨isMay, fun how isAllowed => ih _ (continues how isAllowed)⟩

variable {f : α → Prog Res ε β}

theorem Holds.bind {post : Except ε β → σ → Prop} (holds : p.Holds K (fun
      | .ok value, s => (f value).Holds K post s
      | .error error, s => post (.error error) s) s) :
    (p >>= f).Holds K post s := by
  induction p generalizing s with
  | pure value => exact holds
  | throw error => exact holds
  | call op next ih =>
    intro s' relied isInv
    obtain ⟨isMay, continues⟩ := holds s' relied isInv
    exact ⟨isMay, fun how isAllowed => ih _ (continues how isAllowed)⟩

theorem Holds.catching {post : Except ε (Except ε α) → σ → Prop}
    (holds : p.Holds K (fun answer s => post (.ok answer) s) s) :
    p.catching.Holds K post s := by
  induction p generalizing s with
  | pure value => exact holds
  | throw error => exact holds
  | call op next ih =>
    intro s' relied isInv
    obtain ⟨isMay, continues⟩ := holds s' relied isInv
    exact ⟨isMay, fun how isAllowed => ih _ (continues how isAllowed)⟩

/-- A call and the program after it. -/
theorem Holds.perform {op : Op} {f : Res op → Prog Res ε β} {post : Except ε β → σ → Prop}
    (isMay : ∀ s', K.rely s s' → K.inv s' → K.may s' op)
    (fails : ∀ s' how error, K.rely s s' → K.inv s' → K.allowed s' op how →
      (K.exec op how s').1 = .error error → post (.error error) (K.exec op how s').2)
    (continues : ∀ s' how value, K.rely s s' → K.inv s' → K.allowed s' op how →
      (K.exec op how s').1 = .ok value → (f value).Holds K post (K.exec op how s').2) :
    (Prog.perform op >>= f).Holds K post s := by
  intro s' relied isInv
  refine ⟨isMay s' relied isInv, ?_⟩
  intro how isAllowed
  cases answered : (K.exec op how s').1 with
  | ok value => exact continues s' how value relied isInv isAllowed answered
  | error error => exact fails s' how error relied isInv isAllowed answered

variable {stopped : σ → Prop}

theorem Holds.returns {value : α} {returned : α → σ → Prop} (isReturned : returned value s) :
    (Pure.pure value : Prog Res ε α).Holds K (ends stopped returned) s :=
  isReturned

theorem Holds.throws {error : ε} {returned : α → σ → Prop} (isStopped : stopped s) :
    (Prog.throw error : Prog Res ε α).Holds K (ends stopped returned) s :=
  isStopped

variable {returned : β → σ → Prop}

theorem Holds.bindEnds
    (holds : p.Holds K (ends stopped fun value s => (f value).Holds K (ends stopped returned) s) s) :
    (p >>= f).Holds K (ends stopped returned) s := by
  refine Holds.bind (holds.mono ?_)
  intro answer s reached
  cases answer with
  | ok value => exact reached
  | error error => exact reached

/-- A program and the program after it. -/
theorem Holds.andThen {middle : α → σ → Prop} (first : p.Holds K (ends stopped middle) s)
    (second : ∀ value s', middle value s' → (f value).Holds K (ends stopped returned) s') :
    (p >>= f).Holds K (ends stopped returned) s := by
  refine Holds.bindEnds (first.mono ?_)
  intro answer s' reached
  cases answer with
  | ok value => exact second value s' reached
  | error error => exact reached

/-- A program whose error is handled by the program after it. -/
theorem Holds.catchingThen {f : Except ε α → Prog Res ε β} {caught stopped : σ → Prop}
    {middle : α → σ → Prop} (first : p.Holds K (ends caught middle) s)
    (returns : ∀ value s', middle value s' → (f (.ok value)).Holds K (ends stopped returned) s')
    (handles : ∀ error s', caught s' → (f (.error error)).Holds K (ends stopped returned) s') :
    (p.catching >>= f).Holds K (ends stopped returned) s := by
  refine Holds.bind (Holds.catching (first.mono ?_))
  intro answer s' reached
  cases answer with
  | ok value => exact returns value s' reached
  | error error => exact handles error s' reached

theorem Holds.ofExcept {result : Except ε α} {returned : α → σ → Prop}
    (stops : ∀ error, result = .error error → stopped s)
    (returns : ∀ value, result = .ok value → returned value s) :
    (Prog.ofExcept result : Prog Res ε α).Holds K (ends stopped returned) s := by
  cases result with
  | ok value => exact returns value rfl
  | error error => exact stops error rfl

theorem Holds.exceptThen {result : Except ε α} (stops : stopped s)
    (continues : ∀ value, result = .ok value → (f value).Holds K (ends stopped returned) s) :
    (Prog.ofExcept result >>= f).Holds K (ends stopped returned) s :=
  Holds.bindEnds (Holds.ofExcept (fun _ _ => stops) continues)

/-- A program that starts in a good state ends in one. -/
theorem Holds.invariant
    (keeps : ∀ s op how, K.inv s → K.allowed s op how → K.may s op → K.inv (K.exec op how s).2)
    (isInv : K.inv s) (holds : p.Holds K post s) :
    p.Holds K (fun answer s => post answer s ∧ K.inv s) s := by
  induction p generalizing s with
  | pure value => exact ⟨holds, isInv⟩
  | throw error => exact ⟨holds, isInv⟩
  | call op next ih =>
    intro s' relied isInv'
    obtain ⟨isMay, continues⟩ := holds s' relied isInv'
    refine ⟨isMay, ?_⟩
    intro how isAllowed
    exact ih _ (keeps s' op how isInv' isAllowed isMay) (continues how isAllowed)

/-- A program that has not begun its next call does not notice the others. -/
theorem Holds.rely (trans : ∀ a b c, K.rely a b → K.rely b c → K.rely a c)
    (stable : ∀ answer s s', post answer s → K.rely s s' → post answer s')
    (holds : p.Holds K post s) (relied : K.rely s s') : p.Holds K post s' := by
  cases p with
  | pure value => exact stable _ _ _ holds relied
  | throw error => exact stable _ _ _ holds relied
  | call op next => exact fun s'' later => holds s'' (trans _ _ _ relied later)

end Rules

/-! ## The runs of one program

`Steps` is what one program does when nobody acts in between, call by call, and may be
left at any call: a crash leaves the state and drops the program. -/

section Steps

variable (exec : (op : Op) → η → σ → Except ε (Res op) × σ) (allowed : σ → Op → η → Prop)

/-- The context of a program that nobody disturbs. -/
def alone (may : σ → Op → Prop) : Context η σ Res ε where
  exec
  allowed
  inv _ := True
  rely := Eq
  may

variable {exec allowed} {may : σ → Op → Prop} {post : Except ε α → σ → Prop} {s s' : σ}
  {p p' : Prog Res ε α}

end Steps

end Prog

/-! ## Agents -/

/-- Agents `ι` that run the programs of commands `κ`, and an environment `ω`. -/
structure Machine (σ ι κ η ω : Type) {Op : Type} (Res : Op → Type) (ε α : Type) where
  program : ι → κ → Prog Res ε α
  exec : ι → (op : Op) → η → σ → Except ε (Res op) × σ
  crash : ι → σ → σ
  env : ω → σ → Option σ

namespace Machine

variable {σ ι κ η ω : Type} {Op : Type} {Res : Op → Type} {ε α : Type}

/-- What the agents share, and what is left of the program each of them runs. -/
structure Config (σ ι : Type) {Op : Type} (Res : Op → Type) (ε α : Type) where
  shared : σ
  running : ι → Option (Prog Res ε α)

/-- An agent starts a command, makes its next call, is done with the program it has
finished, or crashes; or the environment acts. -/
inductive Label (ι κ η ω : Type) where
  | start (agent : ι) (command : κ)
  | call (agent : ι) (how : η)
  | finish (agent : ι)
  | crash (agent : ι)
  | env (event : ω)

variable [DecidableEq ι] (M : Machine σ ι κ η ω Res ε α)

def next (c : Config σ ι Res ε α) : Label ι κ η ω → Option (Config σ ι Res ε α)
  | .start agent command =>
    if (c.running agent).isNone then
      some { c with
        running := Function.update c.running agent (some (M.program agent command)) }
    else none
  | .call agent how =>
    match c.running agent with
    | some (.call op rest) =>
      let done := M.exec agent op how c.shared
      some { shared := done.2
             running := Function.update c.running agent (some (rest done.1)) }
    | _ => none
  | .finish agent =>
    match c.running agent with
    | some (.call _ _) => none
    | _ => some { c with running := Function.update c.running agent none }
  | .crash agent =>
    some { shared := M.crash agent c.shared
           running := Function.update c.running agent none }
  | .env event => (M.env event c.shared).map fun shared => { c with shared := shared }

/-- A condition on the steps of a run. -/
structure Condition (σ ι κ η ω : Type) (Op : Type) where
  start : ι → σ → κ → Prop
  call : ι → σ → Op → η → Prop
  env : σ → ω → Prop

def Condition.meets (C : Condition σ ι κ η ω Op) (c : Config σ ι Res ε α) : Label ι κ η ω → Prop
  | .start agent command => C.start agent c.shared command
  | .call agent how => ∀ op rest, c.running agent = some (.call op rest) →
      C.call agent c.shared op how
  | .finish _ => True
  | .crash _ => True
  | .env event => C.env c.shared event

/-- The runs from the shared states `init`, with no program running. -/
def system (init : σ → Prop) : System (Config σ ι Res ε α) (Label ι κ η ω) :=
  System.ofStep (fun c => init c.shared ∧ ∀ agent, c.running agent = none) M.next

/-- What an agent's program is proved against. -/
def context (C : Condition σ ι κ η ω Op) (inv : σ → Prop) (rely : ι → σ → σ → Prop)
    (may : ι → σ → Op → Prop) (agent : ι) : Prog.Context η σ Res ε where
  exec := M.exec agent
  allowed := C.call agent
  inv
  rely := rely agent
  may := may agent

section Safe

variable {M} {C : Condition σ ι κ η ω Op} {init inv : σ → Prop} {rely : ι → σ → σ → Prop}
  {may : ι → σ → Op → Prop} {post : ι → Except ε α → σ → Prop}

/-- **The rule for runs of agents.**  If every call an agent may make, and every step of
the environment, keeps the invariant and is what the other agents rely on, and every
command is a program that only makes such calls, then in every state reached the
invariant holds and every running program can still go on, and has kept what it
promised if it is finished. -/
theorem safe (initial : ∀ s, init s → inv s)
    (trans : ∀ agent a b c, rely agent a b → rely agent b c → rely agent a c)
    (stable : ∀ agent answer s s', post agent answer s → rely agent s s' → post agent answer s')
    (env : ∀ event s s', inv s → C.env s event → M.env event s = some s' →
      inv s' ∧ ∀ agent, rely agent s s')
    (calls : ∀ agent op how s, inv s → C.call agent s op how → may agent s op →
      inv (M.exec agent op how s).2 ∧
        ∀ other, other ≠ agent → rely other s (M.exec agent op how s).2)
    (crashes : ∀ agent s, inv s → inv (M.crash agent s) ∧
      ∀ other, other ≠ agent → rely other s (M.crash agent s))
    (refl : ∀ agent s, inv s → rely agent s s)
    (starts : ∀ agent command s, inv s → C.start agent s command →
      (M.program agent command).Holds (M.context C inv rely may agent) (post agent) s)
    {c : Config σ ι Res ε α} (reached : (M.system init).ReachableBy C.meets c) :
    inv c.shared ∧ ∀ agent p, c.running agent = some p →
      p.Holds (M.context C inv rely may agent) (post agent) c.shared := by
  induction reached with
  | start starts =>
    obtain ⟨isInit, idle⟩ := starts
    refine ⟨initial _ isInit, ?_⟩
    intro agent p running
    rw [idle agent] at running
    cases running
  | step _ meets steps ih =>
    rename_i c c' label _
    obtain ⟨isInv, holds⟩ := ih
    cases label with
    | start agent command =>
      simp only [system, System.ofStep, next] at steps
      split at steps <;> cases steps
      refine ⟨isInv, ?_⟩
      intro other p running
      by_cases same : other = agent
      · subst same
        simp only [update_self, Option.some.injEq] at running
        subst running
        exact starts other command c.shared isInv meets
      · simp only [update_of_ne same] at running
        exact holds other p running
    | call agent how =>
      simp only [system, System.ofStep, next] at steps
      split at steps <;> cases steps
      rename_i op rest isRunning
      obtain ⟨isMay, continues⟩ :=
        holds agent _ isRunning c.shared (refl agent c.shared isInv) isInv
      have isAllowed : C.call agent c.shared op how := meets op rest isRunning
      obtain ⟨isInv', relied⟩ := calls agent op how c.shared isInv isAllowed isMay
      refine ⟨isInv', ?_⟩
      intro other p running
      by_cases same : other = agent
      · subst same
        simp only [update_self, Option.some.injEq] at running
        subst running
        exact continues how isAllowed
      · simp only [update_of_ne same] at running
        exact (holds other p running).rely (trans other) (stable other) (relied other same)
    | finish agent =>
      simp only [system, System.ofStep, next] at steps
      split at steps <;> cases steps
      refine ⟨isInv, ?_⟩
      intro other p running
      by_cases same : other = agent
      · subst same
        simp only [update_self] at running
        cases running
      · simp only [update_of_ne same] at running
        exact holds other p running
    | crash agent =>
      cases steps
      obtain ⟨isInv', relied⟩ := crashes agent c.shared isInv
      refine ⟨isInv', ?_⟩
      intro other p running
      by_cases same : other = agent
      · subst same
        simp only [update_self] at running
        cases running
      · simp only [update_of_ne same] at running
        exact (holds other p running).rely (trans other) (stable other) (relied other same)
    | env event =>
      obtain ⟨shared, acted, rfl⟩ := Option.map_eq_some_iff.mp steps
      obtain ⟨isInv', relied⟩ := env event c.shared shared isInv meets acted
      refine ⟨isInv', ?_⟩
      intro agent p running
      exact (holds agent p running).rely (trans agent) (stable agent) (relied agent)

end Safe

end Machine

-- from here on a program is proved by the rules: unfolding it would run it
attribute [irreducible] Prog.Holds

end Kuku.Theory
