/-
# Theory.Effect -- computations that may fail and keep what they have done

An `Effect` acts on a state and answers, or stops with an error; either way what it has done
to the state stays.  `bind_ok` and `bind_error` say how a sequence comes to its end, and
`Keeps` is what holds of the state whatever the end is.
-/
import Kuku.Theory.Except

namespace Kuku.Theory

/-- A computation on a state that stays as it is when the computation fails. -/
def Effect (σ ε α : Type) : Type := σ → Except ε α × σ

namespace Effect

variable {σ ε α β : Type}

instance : Monad (Effect σ ε) where
  pure a := fun s => (.ok a, s)
  bind x f := fun s =>
    match x s with
    | (.ok a, s') => f a s'
    | (.error error, s') => (.error error, s')

def throw (error : ε) : Effect σ ε α := fun s => (.error error, s)

def lift (result : Except ε α) : Effect σ ε α := fun s => (result, s)

def get : Effect σ ε σ := fun s => (.ok s, s)

def modify (f : σ → σ) : Effect σ ε Unit := fun s => (.ok (), f s)

/-- Errors of one layer, as the next one names them. -/
def mapError {ε' : Type} (f : ε → ε') (x : Effect σ ε α) : Effect σ ε' α := fun s =>
  match x s with
  | (.ok a, s') => (.ok a, s')
  | (.error error, s') => (.error (f error), s')

/-- The end of a computation, as a value. -/
def attempt {ε' : Type} (x : Effect σ ε α) : Effect σ ε' (Except ε α) := fun s =>
  (.ok (x s).1, (x s).2)

section Run

variable {x : Effect σ ε α} {f : α → Effect σ ε β} {a : α} {b : β} {error : ε} {s s' : σ}

@[simp] theorem pure_run : (pure a : Effect σ ε α) s = (.ok a, s) := rfl

@[simp] theorem throw_run : (throw error : Effect σ ε α) s = (.error error, s) := rfl

@[simp] theorem lift_run (result : Except ε α) : lift result s = (result, s) := rfl

@[simp] theorem get_run : (get : Effect σ ε σ) s = (.ok s, s) := rfl

@[simp] theorem modify_run (g : σ → σ) : (modify g : Effect σ ε Unit) s = (.ok (), g s) := rfl

theorem bind_of_ok (ran : x s = (.ok a, s')) : (x >>= f) s = f a s' := by
  change (match x s with | (.ok a, s') => f a s' | (.error error, s') => (.error error, s')) = _
  rw [ran]

theorem bind_of_error (ran : x s = (.error error, s')) : (x >>= f) s = (.error error, s') := by
  change (match x s with | (.ok a, s') => f a s' | (.error error, s') => (.error error, s')) = _
  rw [ran]

theorem bind_ok {s'' : σ} : (x >>= f) s = (.ok b, s'') ↔
    ∃ a s', x s = (.ok a, s') ∧ f a s' = (.ok b, s'') := by
  constructor
  · intro ran
    match isFirst : x s with
    | (.ok a, s') => exact ⟨a, s', rfl, (bind_of_ok isFirst).symm.trans ran⟩
    | (.error error, s') =>
      rw [bind_of_error isFirst] at ran
      cases ran
  · rintro ⟨a, s', isFirst, isRest⟩
    rw [bind_of_ok isFirst, isRest]

theorem bind_error {s'' : σ} : (x >>= f) s = (.error error, s'') ↔
    x s = (.error error, s'') ∨ ∃ a s', x s = (.ok a, s') ∧ f a s' = (.error error, s'') := by
  constructor
  · intro ran
    match isFirst : x s with
    | (.ok a, s') => exact .inr ⟨a, s', rfl, (bind_of_ok isFirst).symm.trans ran⟩
    | (.error other, s') =>
      rw [bind_of_error isFirst] at ran
      cases ran
      exact .inl rfl
  · rintro (isError | ⟨a, s', isFirst, isRest⟩)
    · exact bind_of_error isError
    · rw [bind_of_ok isFirst, isRest]

theorem bind_congr_of_ok {x' : Effect σ ε α} {g : α → Effect σ ε β} (first : x s = x' s)
    (rest : ∀ a s', x' s = (.ok a, s') → f a s' = g a s') : (x >>= f) s = (x' >>= g) s := by
  match ran : x' s with
  | (.ok a, s') =>
    rw [bind_of_ok ran, bind_of_ok (first.trans ran)]
    exact rest a s' ran
  | (.error error, s') => rw [bind_of_error ran, bind_of_error (first.trans ran)]

theorem bind_assoc {γ : Type} (x : Effect σ ε α) (f : α → Effect σ ε β) (g : β → Effect σ ε γ) :
    (x >>= f) >>= g = x >>= fun a => f a >>= g := by
  funext s
  match ran : x s with
  | (.ok a, s') =>
    rw [bind_of_ok (x := x) ran]
    change (match (x >>= f) s with
      | (.ok b, s'') => g b s''
      | (.error error, s'') => (.error error, s'')) = _
    rw [bind_of_ok ran]
    rfl
  | (.error error, s') => rw [bind_of_error ran, bind_of_error (bind_of_error ran)]

@[simp] theorem lift_bind_ok : (lift (.ok a) >>= f) s = f a s := rfl

@[simp] theorem lift_bind_error : (lift (.error error) >>= f) s = (.error error, s) := rfl

@[simp] theorem get_bind (g : σ → Effect σ ε β) : (get >>= g) s = g s s := rfl

@[simp] theorem modify_bind (g : σ → σ) (y : Unit → Effect σ ε β) :
    (modify g >>= y) s = y () (g s) := rfl

@[simp] theorem pure_bind_run : (pure a >>= f) s = f a s := rfl

@[simp] theorem throw_bind : ((throw error : Effect σ ε α) >>= f) s = (.error error, s) := rfl

@[simp] theorem attempt_bind {ε' : Type} (y : Effect σ ε' α) (g : Except ε' α → Effect σ ε β) :
    (attempt y >>= g) s = g (y s).1 (y s).2 := rfl

theorem mapError_of_ok {ε' : Type} {g : ε → ε'} (ran : x s = (.ok a, s')) :
    mapError g x s = (.ok a, s') := by
  unfold mapError
  rw [ran]

theorem mapError_of_error {ε' : Type} {g : ε → ε'} (ran : x s = (.error error, s')) :
    mapError g x s = (.error (g error), s') := by
  unfold mapError
  rw [ran]

end Run

/-! ## What every end keeps -/

/-- The state after the computation, ended or stopped, is related to the one before. -/
def Keeps (R : σ → σ → Prop) (x : Effect σ ε α) : Prop := ∀ s, R s (x s).2

section Keeps

variable {R : σ → σ → Prop} {x : Effect σ ε α} {f : α → Effect σ ε β}

theorem Keeps.of_same (refl : ∀ s, R s s) (same : ∀ s, (x s).2 = s) : Keeps R x := by
  intro s
  rw [same]
  exact refl s

theorem Keeps.bind (trans : ∀ s s' s'', R s s' → R s' s'' → R s s'') (first : Keeps R x)
    (next : ∀ a, Keeps R (f a)) : Keeps R (x >>= f) := by
  intro s
  have early := first s
  match ran : x s with
  | (.ok a, s') =>
    rw [bind_of_ok ran]
    rw [ran] at early
    exact trans s s' _ early (next a s')
  | (.error error, s') =>
    rw [bind_of_error ran]
    rw [ran] at early
    exact early

end Keeps

end Effect

end Kuku.Theory
