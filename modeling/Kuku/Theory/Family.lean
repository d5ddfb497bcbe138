/-
# Theory.Family -- independent copies of a machine

A server keeps the rows of many users, and every call of a transaction is about the
rows of one of them.  `Machine.family` makes of a machine for one user's rows the
machine for all users' rows: the shared state is a function of the user, every command
names a user, and its calls act at that user.  The agents are shared: one of them can
serve one user and then another.

`family_safe` is `Machine.safe` for families: what is proved once about one copy holds
of every copy in every interleaving, and of the next call of every agent.
-/
import Kuku.Theory.Program

namespace Kuku.Theory

open Function

variable {Op : Type} {Res : Op → Type} {ε α σ ι κ η ω U : Type}

/-- The answers of the calls of a family. -/
abbrev familyRes (Res : Op → Type) (call : U × Op) : Type := Res call.2

def Prog.at (u : U) : Prog Res ε α → Prog (familyRes (U := U) Res) ε α
  | .pure value => .pure value
  | .throw error => .throw error
  | .call op next => .call (u, op) fun answer => Prog.at u (next answer)

variable [DecidableEq U]

/-- A call at one member. -/
def atMember (exec : (op : Op) → η → σ → Except ε (Res op) × σ) (call : U × Op) (how : η)
    (s : U → σ) : Except ε (Res call.2) × (U → σ) :=
  let done := exec call.2 how (s call.1)
  (done.1, Function.update s call.1 done.2)

/-- What a program relies on, at every member. -/
def Prog.Context.family (U : Type) [DecidableEq U] (K : Prog.Context η σ Res ε) :
    Prog.Context η (U → σ) (familyRes (U := U) Res) ε where
  exec := atMember K.exec
  allowed s call how := K.allowed (s call.1) call.2 how
  inv s := ∀ u, K.inv (s u)
  rely s s' := ∀ u, K.rely (s u) (s' u)
  may s call := K.may (s call.1) call.2

/-- A program that is safe at one member is safe among the others. -/
theorem Prog.Holds.at {K : Prog.Context η σ Res ε} {post : Except ε α → σ → Prop} {u : U}
    {p : Prog Res ε α} {s : U → σ} (holds : p.Holds K post (s u)) :
    (p.at u).Holds (K.family U) (fun answer s => post answer (s u)) s := by
  induction p generalizing s with
  | pure value => exact holds_pure.mpr (holds_pure.mp holds)
  | throw error => exact holds_throw.mpr (holds_throw.mp holds)
  | call op next ih =>
    refine holds_call.mpr ?_
    intro s' relied isInv
    obtain ⟨isMay, continues⟩ := holds_call.mp holds (s' u) (relied u) (isInv u)
    refine ⟨isMay, ?_⟩
    intro how isAllowed
    apply ih
    have moved : ((K.family U).exec (u, op) how s').2 u = (K.exec op how (s' u)).2 := by
      simp [Prog.Context.family, atMember]
    rw [moved]
    exact continues how isAllowed

namespace Machine

/-- A machine whose commands name a member, at every member of a family. -/
def family (M : Machine σ ι (U × κ) η ω Res ε α) :
    Machine (U → σ) ι (U × κ) η (U × ω) (familyRes (U := U) Res) ε α where
  program agent command := (M.program agent command).at command.1
  exec agent := atMember (M.exec agent)
  crash agent s := fun u => M.crash agent (s u)
  env event s := (M.env event.2 (s event.1)).map fun member => Function.update s event.1 member

/-- A condition on the steps of one member, for all of them. -/
def Condition.family (C : Condition σ ι (U × κ) η ω Op) :
    Condition (U → σ) ι (U × κ) η (U × ω) (U × Op) where
  start agent s command := C.start agent (s command.1) command
  call agent s call how := C.call agent (s call.1) call.2 how
  env s event := C.env (s event.1) event.2

variable [DecidableEq ι] {M : Machine σ ι (U × κ) η ω Res ε α}
  {C : Condition σ ι (U × κ) η ω Op} {init inv : σ → Prop} {rely : ι → σ → σ → Prop}
  {may : ι → σ → Op → Prop} {post : ι → Except ε α → σ → Prop}

/-- **The rule for runs of a family.**  The premises are those of `Machine.safe`, about one
member; the conclusion is about all of them, and about every call under way. -/
theorem family_safe (initial : ∀ s, init s → inv s)
    (trans : ∀ agent a b c, rely agent a b → rely agent b c → rely agent a c)
    (env : ∀ event s s', inv s → C.env s event → M.env event s = some s' →
      inv s' ∧ ∀ agent, rely agent s s')
    (calls : ∀ agent op how s, inv s → C.call agent s op how → may agent s op →
      inv (M.exec agent op how s).2 ∧
        ∀ other, other ≠ agent → rely other s (M.exec agent op how s).2)
    (crashes : ∀ agent s, inv s → inv (M.crash agent s) ∧
      ∀ other, other ≠ agent → rely other s (M.crash agent s))
    (refl : ∀ agent s, inv s → rely agent s s)
    (starts : ∀ agent command s, inv s → C.start agent s command →
      (M.program agent command).Holds (M.context C inv rely may agent) (post agent) s)
    {c : Config (U → σ) ι (familyRes (U := U) Res) ε α}
    (reached : (M.family.system fun s => ∀ u, init (s u)).ReachableBy C.family.meets c) :
    (∀ u, inv (c.shared u)) ∧ ∀ agent u op rest,
      c.running agent = some (.call (u, op) rest) → may agent (c.shared u) op := by
  -- a step at one member leaves the others where they are
  have moved : ∀ (P : σ → σ → Prop) (s : U → σ) (u : U) (member : σ), (∀ u, P (s u) (s u)) →
      P (s u) member → ∀ u', P (s u') (Function.update s u member u') := by
    intro P s u member same there u'
    by_cases isIt : u' = u
    · subst isIt
      rw [update_self]
      exact there
    · rw [update_of_ne isIt]
      exact same u'
  have kept : ∀ (s : U → σ) (u : U) (member : σ), (∀ u, inv (s u)) → inv member →
      ∀ u', inv (Function.update s u member u') := by
    intro s u member all isInv u'
    exact moved (fun before after => inv before → inv after) s u member (fun _ => id)
      (fun _ => isInv) u' (all u')
  have allInitial : ∀ s : U → σ, (∀ u, init (s u)) → ∀ u, inv (s u) :=
    fun s isInit u => initial (s u) (isInit u)
  have allTrans : ∀ agent (a b c : U → σ), (∀ u, rely agent (a u) (b u)) →
      (∀ u, rely agent (b u) (c u)) → ∀ u, rely agent (a u) (c u) :=
    fun agent a b c first second u => trans agent _ _ _ (first u) (second u)
  have allEnv : ∀ event (s s' : U → σ), (∀ u, inv (s u)) → C.family.env s event →
      M.family.env event s = some s' →
      (∀ u, inv (s' u)) ∧ ∀ agent u, rely agent (s u) (s' u) := by
    rintro ⟨u, event⟩ s s' isInv isOk acted
    obtain ⟨member, happened, rfl⟩ := Option.map_eq_some_iff.mp acted
    obtain ⟨isInv', relied⟩ := env event (s u) member (isInv u) isOk happened
    exact ⟨kept s u member isInv isInv',
      fun agent => moved (rely agent) s u member (fun u => refl agent (s u) (isInv u))
        (relied agent)⟩
  have allCalls : ∀ agent (call : U × Op) how (s : U → σ), (∀ u, inv (s u)) →
      C.family.call agent s call how → may agent (s call.1) call.2 →
      (∀ u, inv ((M.family.exec agent call how s).2 u)) ∧
        ∀ other, other ≠ agent → ∀ u, rely other (s u) ((M.family.exec agent call how s).2 u) := by
    rintro agent ⟨u, op⟩ how s isInv isOk isMay
    obtain ⟨isInv', relied⟩ := calls agent op how (s u) (isInv u) isOk isMay
    exact ⟨kept s u _ isInv isInv',
      fun other differ => moved (rely other) s u _ (fun u => refl other (s u) (isInv u))
        (relied other differ)⟩
  have allCrashes : ∀ agent (s : U → σ), (∀ u, inv (s u)) →
      (∀ u, inv (M.family.crash agent s u)) ∧
        ∀ other, other ≠ agent → ∀ u, rely other (s u) (M.family.crash agent s u) := by
    intro agent s isInv
    refine ⟨fun u => (crashes agent (s u) (isInv u)).1, ?_⟩
    intro other differ u
    exact (crashes agent (s u) (isInv u)).2 other differ
  have allStarts : ∀ agent (command : U × κ) (s : U → σ), (∀ u, inv (s u)) →
      C.family.start agent s command →
      (M.family.program agent command).Holds
        (M.family.context C.family (fun s => ∀ u, inv (s u))
          (fun agent s s' => ∀ u, rely agent (s u) (s' u))
          (fun agent s call => may agent (s call.1) call.2) agent) (fun _ _ => True) s := by
    rintro agent ⟨u, command⟩ s isInv isOk
    exact (Prog.Holds.at (starts agent (u, command) (s u) (isInv u) isOk)).mono fun _ _ _ => trivial
  have safe := Machine.safe allInitial allTrans (fun _ _ _ _ _ _ => trivial) allEnv allCalls
    allCrashes (fun agent s isInv u => refl agent (s u) (isInv u)) allStarts reached
  refine ⟨safe.1, ?_⟩
  intro agent u op rest isRunning
  have holds := Prog.holds_call.mp (safe.2 agent _ isRunning)
  exact (holds c.shared (fun u => refl agent (c.shared u) (safe.1 u)) safe.1).1

end Machine

end Kuku.Theory
