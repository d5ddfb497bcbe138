/-
# Knowledge.Lock -- the lock files of apply and proposal creation

An apply takes two lock files, one for the document's id and one for its path; the
creation of a proposal takes the second.  A lock is a file made with `create_new`
and unlinked by path when its holder is done.  `acquire_lock_file` takes over a file
older than `LOCK_STALE_AFTER`: it looks at the file's age, renames it away and makes
a new one.  The proposal's lock does no such thing.

The model has one lock path and any number of callers.  Every call to the file
system and every reading of the clock is a step of its own, so anything can happen
between two of them; a call can also fail with an error of its own, and a caller can
crash at any point.  `held` is not part of the directory: it says who has the lock.

* `LockUser.program` follows the source: take the lock, hold it, drop it.
* `exclusive_and_recoverable`: as long as no takeover renames a file away that is not
  stale, at most one caller holds the lock, and a lock that was left behind can be
  taken again by exactly those users that look at its age.
* `two_holders_and_proposal_refused`: without that condition two callers hold it.
-/
import Kuku.Knowledge.ServiceError
import Kuku.Theory.Program

namespace Kuku.Knowledge

open Kuku.Theory Function Option

/-- `LOCK_STALE_AFTER`, half an hour, in nanoseconds. -/
def lockStaleAfter : Nat := 30 * 60 * 1000000000

/-- The path a stale lock is moved to, named by the second of the move. -/
structure StalePath where
  second : Nat
  deriving DecidableEq

def StalePath.at (now : Nat) : StalePath := ⟨now / 1000000000⟩

/-- A lock's directory as the calls see it, with the clock, and who has the lock. -/
structure LockDir (ι : Type) where
  now : Nat
  /-- When the file at the lock path was last modified. -/
  lock : Option Nat
  stale : StalePath → Option Nat
  /-- Since when a caller holds the lock: its `create_new` made the file, and it has
  neither dropped the lock nor crashed. -/
  held : ι → Option Nat

inductive LockOp where
  | createDirAll
  | createNew
  | metadata
  | now
  | rename (stale : StalePath)
  | removeStale (stale : StalePath)
  | drop

abbrev LockOp.Res : LockOp → Type
  | .createDirAll => Except IoError Unit
  | .createNew => Except IoError Unit
  | .metadata => Except IoError Nat
  | .now => Nat
  | .rename _ => Except IoError Unit
  | .removeStale _ => Except IoError Unit
  | .drop => Except IoError Unit

namespace LockDir

variable {ι : Type} [DecidableEq ι]

/-- One call of a caller, when nothing is wrong with the file system. -/
def perform (caller : ι) : (op : LockOp) → LockDir ι → op.Res × LockDir ι
  | .createDirAll, s => (.ok (), s)
  | .createNew, s =>
    match s.lock with
    | some _ => (.error .fileExists, s)
    | none =>
      (.ok (), { s with
        lock := some s.now
        held := Function.update s.held caller (some s.now) })
  | .metadata, s =>
    match s.lock with
    | some modified => (.ok modified, s)
    | none => (.error .noSuchFile, s)
  | .now, s => (s.now, s)
  | .rename path, s =>
    match s.lock with
    | some modified =>
      (.ok (), { s with
        lock := none
        stale := Function.update s.stale path (some modified) })
    | none => (.error .noSuchFile, s)
  | .removeStale path, s =>
    match s.stale path with
    | some _ => (.ok (), { s with stale := Function.update s.stale path none })
    | none => (.error .noSuchFile, s)
  | .drop, s =>
    (match s.lock with
      | some _ => .ok ()
      | none => .error .noSuchFile,
      { s with
        lock := none
        held := Function.update s.held caller none })

/-- One call that fails, without an effect on the directory. -/
def fault (caller : ι) (error : IoError) : (op : LockOp) → LockDir ι → op.Res × LockDir ι
  | .createDirAll, s => (.error error, s)
  | .createNew, s => (.error error, s)
  | .metadata, s => (.error error, s)
  | .now, s => (s.now, s)
  | .rename _, s => (.error error, s)
  | .removeStale _, s => (.error error, s)
  | .drop, s => (.error error, { s with held := Function.update s.held caller none })

/-- A call goes through, or fails for the reason given. -/
def exec (caller : ι) (op : LockOp) (how : Option String) (s : LockDir ι) :
    Except ServiceError op.Res × LockDir ι :=
  match how with
  | none => (.ok (s.perform caller op).1, (s.perform caller op).2)
  | some text => (.ok (s.fault caller ⟨.other, text⟩ op).1, (s.fault caller ⟨.other, text⟩ op).2)

/-- A caller that crashes leaves the directory as it is. -/
def crash (caller : ι) (s : LockDir ι) : LockDir ι :=
  { s with held := Function.update s.held caller none }

/-- Time passes. -/
def tick (nanos : Nat) (s : LockDir ι) : Option (LockDir ι) := some { s with now := s.now + nanos }

end LockDir

/-! ## The programs -/

abbrev LockProgram := Prog LockOp.Res ServiceError

def createLockFile : LockProgram Unit := do
  let opened : Except IoError Unit ← Prog.perform LockOp.createNew
  match opened with
  | .ok _ => pure ()
  | .error error =>
    if error.kind = .alreadyExists then .throw ⟨.alreadyExists, "Lock already exists"⟩
    else .throw (.io error)

/-- A lock file that is gone counts as stale; a file from the future does not. -/
def lockIsStale : LockProgram Bool := do
  let metadata : Except IoError Nat ← Prog.perform LockOp.metadata
  match metadata with
  | .error error => if error.kind = .notFound then pure true else .throw (.io error)
  | .ok modified => do
    let now : Nat ← Prog.perform LockOp.now
    pure (decide (modified ≤ now ∧ lockStaleAfter < now - modified))

def replaceStaleLock (inProgressMessage : String) : LockProgram Unit := do
  let now : Nat ← Prog.perform LockOp.now
  let stalePath := StalePath.at now
  let renamed : Except IoError Unit ← Prog.perform (LockOp.rename stalePath)
  match renamed with
  | .error error =>
    if error.kind = .notFound then takeOver stalePath else .throw (.io error)
  | .ok _ => takeOver stalePath
where
  takeOver (stalePath : StalePath) : LockProgram Unit := do
    match ← createLockFile.catching with
    | .ok _ =>
      let _ : Except IoError Unit ← Prog.perform (LockOp.removeStale stalePath)
      pure ()
    | .error error =>
      if error.code = .alreadyExists then .throw ⟨.applyInProgress, inProgressMessage⟩
      else .throw error

def acquireLockFile (inProgressMessage : String) : LockProgram Unit := do
  match ← createLockFile.catching with
  | .ok _ => pure ()
  | .error error =>
    if error.code = .alreadyExists then do
      if !(← lockIsStale) then .throw ⟨.applyInProgress, inProgressMessage⟩
      else replaceStaleLock inProgressMessage
    else .throw error

def createLockDir : LockProgram Unit := do
  let created : Except IoError Unit ← Prog.perform LockOp.createDirAll
  match created with
  | .ok _ => pure ()
  | .error error => .throw (.io error)

/-- Who takes a lock: `ApplyLock` and `DocumentWriteLock` of an apply, and the
`DocumentWriteLock` of the proposal service. -/
inductive LockUser where
  | applyLock
  | documentWriteLock
  | proposalWriteLock

/-- `acquire` of the three lock types. -/
def LockUser.acquire : LockUser → LockProgram Unit
  | .applyLock => do
    createLockDir
    acquireLockFile "Decision document apply is already in progress"
  | .documentWriteLock => do
    createLockDir
    acquireLockFile "Decision document write is already in progress"
  | .proposalWriteLock => do
    createLockDir
    let opened : Except IoError Unit ← Prog.perform LockOp.createNew
    match opened with
    | .ok _ => pure ()
    | .error error =>
      if error.kind = .alreadyExists then
        .throw ⟨.applyInProgress, "Decision document write is already in progress"⟩
      else .throw (.io error)

/-- Take the lock, hold it for a while, and drop it. -/
def LockUser.program (user : LockUser) : LockProgram Unit := do
  user.acquire
  let _ : Except IoError Unit ← Prog.perform LockOp.drop
  pure ()

/-- Any number of callers at one lock path, and the clock. -/
def lockUsers (ι : Type) [DecidableEq ι] :
    Machine (LockDir ι) ι LockUser (Option String) Nat LockOp.Res ServiceError Unit where
  program _ user := user.program
  exec := LockDir.exec
  crash := LockDir.crash
  env := LockDir.tick

/-! ## At most one holder -/

namespace LockDir

variable {ι : Type} {s s' : LockDir ι}

/-- Nobody holds the lock; the directory may have a file of a caller that crashed. -/
def Unheld (s : LockDir ι) : Prop := ∀ caller, s.held caller = none

/-- At most one caller holds the lock. -/
def Exclusive (s : LockDir ι) : Prop := ∀ a b, (s.held a).isSome → (s.held b).isSome → a = b

/-- The file at the lock path, if there is one, is stale. -/
def LockStale (s : LockDir ι) : Prop :=
  ∀ modified, s.lock = some modified → lockStaleAfter < s.now - modified

/-- A holder's file is the one at the lock path and is not stale. -/
structure Inv (s : LockDir ι) : Prop where
  owns : ∀ caller since, s.held caller = some since →
    s.lock = some since ∧ s.now ≤ since + lockStaleAfter
  exclusive : s.Exclusive

theorem Unheld.inv (unheld : s.Unheld) : s.Inv where
  owns caller since isHeld := by
    rw [unheld caller] at isHeld
    cases isHeld
  exclusive a b aHolds _ := by
    rw [unheld a] at aHolds
    cases aHolds

theorem Inv.unheld_of_none (inv : s.Inv) (free : s.lock = none) : s.Unheld := by
  intro caller
  cases isHeld : s.held caller with
  | none => rfl
  | some since =>
    have owned := (inv.owns caller since isHeld).1
    rw [free] at owned
    cases owned

theorem Inv.unheld_of_stale (inv : s.Inv) (stale : s.LockStale) : s.Unheld := by
  intro caller
  cases isHeld : s.held caller with
  | none => rfl
  | some since =>
    obtain ⟨owned, recent⟩ := inv.owns caller since isHeld
    have old := stale since owned
    omega

variable [DecidableEq ι]

theorem Inv.release (inv : s.Inv) (caller : ι) :
    Inv { s with held := Function.update s.held caller none } where
  owns other since isHeld := by
    by_cases same : other = caller
    · subst same
      simp only [update_self] at isHeld
      cases isHeld
    · simp only [update_of_ne same] at isHeld
      exact inv.owns other since isHeld
  exclusive a b aHolds bHolds := by
    by_cases aCaller : a = caller
    · subst aCaller
      simp at aHolds
    by_cases bCaller : b = caller
    · subst bCaller
      simp at bHolds
    simp only [update_of_ne aCaller] at aHolds
    simp only [update_of_ne bCaller] at bHolds
    exact inv.exclusive a b aHolds bHolds

variable {caller : ι}

/-- The one holder's drop. -/
theorem Inv.unheld_of_drop (inv : s.Inv) (holds : (s.held caller).isSome) :
    Unheld { s with lock := none, held := Function.update s.held caller none } := by
  intro other
  by_cases same : other = caller
  · subst same
    simp
  · simp only [update_of_ne same]
    cases isHeld : s.held other with
    | none => rfl
    | some since => exact absurd (inv.exclusive other caller (by simp [isHeld]) holds) same

theorem Unheld.acquire (unheld : s.Unheld) (caller : ι) :
    Inv { s with lock := some s.now, held := Function.update s.held caller (some s.now) } where
  owns other since isHeld := by
    by_cases same : other = caller
    · subst same
      simp only [update_self, Option.some.injEq] at isHeld
      subst isHeld
      exact ⟨rfl, Nat.le_add_right _ _⟩
    · simp only [update_of_ne same, unheld other] at isHeld
      cases isHeld
  exclusive a b aHolds bHolds := by
    have isCaller : ∀ other, (Function.update s.held caller (some s.now) other).isSome →
        other = caller := by
      intro other holds
      by_contra differ
      simp [update_of_ne differ, unheld other] at holds
    rw [isCaller a aHolds, isCaller b bHolds]

/-- What a caller must see to before a call: only a holder drops the lock. -/
def May (caller : ι) (s : LockDir ι) (op : LockOp) : Prop := op = .drop → (s.held caller).isSome

/-- What a caller relies on: whether it holds the lock is its own affair. -/
def Rely (caller : ι) (s s' : LockDir ι) : Prop := s'.held caller = s.held caller

variable {how : Option String}

/-- One call keeps the invariant, if a lock is only renamed away when it is stale. -/
theorem Inv.exec (inv : s.Inv) {op : LockOp} (isMay : May caller s op)
    (takesStale : ∀ path, op = .rename path → s.LockStale) :
    (s.exec caller op how).2.Inv := by
  cases how with
  | some text =>
    cases op with
    | drop => exact inv.release caller
    | _ => exact inv
  | none =>
    cases op with
    | createDirAll => exact inv
    | metadata =>
      simp only [LockDir.exec, LockDir.perform]
      split <;> exact inv
    | now => exact inv
    | removeStale path =>
      simp only [LockDir.exec, LockDir.perform]
      split
      · exact ⟨inv.owns, inv.exclusive⟩
      · exact inv
    | createNew =>
      simp only [LockDir.exec, LockDir.perform]
      split
      · exact inv
      · rename_i free
        exact (inv.unheld_of_none free).acquire caller
    | rename path =>
      simp only [LockDir.exec, LockDir.perform]
      split
      · have unheld := inv.unheld_of_stale (takesStale path rfl)
        exact Unheld.inv unheld
      · exact inv
    | drop => exact (inv.unheld_of_drop (isMay rfl)).inv

/-- No call changes what another caller holds. -/
theorem exec_held {caller other : ι} {op : LockOp} (differ : other ≠ caller) :
    (s.exec caller op how).2.held other = s.held other := by
  cases how with
  | some text =>
    cases op with
    | drop => simp [LockDir.exec, LockDir.fault, update_of_ne differ]
    | _ => rfl
  | none =>
    cases op with
    | createNew =>
      simp only [LockDir.exec, LockDir.perform]
      split
      · rfl
      · simp [update_of_ne differ]
    | drop => simp [LockDir.exec, LockDir.perform, update_of_ne differ]
    | _ =>
      simp only [LockDir.exec, LockDir.perform]
      try split
      all_goals rfl

/-- Only a drop ends a caller's own hold. -/
theorem exec_holds {op : LockOp} (keeps : op ≠ .drop) (holds : (s.held caller).isSome) :
    ((s.exec caller op how).2.held caller).isSome := by
  cases how with
  | some text =>
    cases op with
    | drop => exact absurd rfl keeps
    | _ => exact holds
  | none =>
    cases op with
    | createNew =>
      simp only [LockDir.exec, LockDir.perform]
      split
      · exact holds
      · simp
    | drop => exact absurd rfl keeps
    | _ =>
      simp only [LockDir.exec, LockDir.perform]
      try split
      all_goals exact holds

/-- A `create_new` that succeeds makes its caller a holder. -/
theorem exec_createNew (created : (s.exec caller .createNew how).1 = .ok (.ok ())) :
    ((s.exec caller .createNew how).2.held caller).isSome := by
  cases how with
  | some text => cases created
  | none =>
    simp only [LockDir.exec, LockDir.perform] at created ⊢
    split at created
    · cases created
    · simp

end LockDir

section Acquire

variable {ι : Type} [DecidableEq ι]

/-- Every holder drops the lock, or crashes, within `LOCK_STALE_AFTER`. -/
def promptly (ι : Type) : Machine.Condition (LockDir ι) ι LockUser (Option String) Nat LockOp where
  start _ _ _ := True
  call _ _ _ _ := True
  env s nanos := ∀ caller since, s.held caller = some since → s.now + nanos ≤ since + lockStaleAfter

/-- Besides, a takeover only renames a file away that is stale at that moment. -/
def takingOverStale (ι : Type) :
    Machine.Condition (LockDir ι) ι LockUser (Option String) Nat LockOp :=
  { promptly ι with call _ s op _ := ∀ path, op = .rename path → s.LockStale }

/-- A program of `caller` that may fail at any point, and what is known once it returns. -/
abbrev Safely {α : Type} (caller : ι) (p : LockProgram α) (returned : α → LockDir ι → Prop)
    (s : LockDir ι) : Prop :=
  p.Holds ((lockUsers ι).context (takingOverStale ι) LockDir.Inv LockDir.Rely LockDir.May caller)
    (Prog.ends (fun _ => True) returned) s

/-- A program that leaves its caller holding the lock, if it returns. -/
abbrev Acquires (caller : ι) (p : LockProgram Unit) (s : LockDir ι) : Prop :=
  Safely caller p (fun _ s => (s.held caller).isSome) s

variable {caller : ι} {s : LockDir ι}

theorem Safely.call {α : Type} {op : LockOp} {f : op.Res → LockProgram α}
    {returned : α → LockDir ι → Prop} (keeps : op ≠ .drop)
    (continues : ∀ value s', ((s.held caller).isSome → (s'.held caller).isSome) →
      Safely caller (f value) returned s') :
    Safely caller (Prog.perform op >>= f) returned s := by
  refine Prog.Holds.perform (fun _ _ _ isDrop => absurd isDrop keeps)
    (fun _ _ _ _ _ _ _ => trivial) ?_
  intro s' how value relied _ _ _
  refine continues value _ ?_
  intro holds
  exact LockDir.exec_holds keeps (relied ▸ holds)

/-- `create_lock_file`, with what follows it in either case. -/
theorem Acquires.create {f : Except ServiceError Unit → LockProgram Unit}
    (made : ∀ s', (s'.held caller).isSome → Acquires caller (f (.ok ())) s')
    (refused : ∀ error s', Acquires caller (f (.error error)) s') :
    Acquires caller (createLockFile.catching >>= f) s := by
  have creates : Acquires caller createLockFile s := by
    refine Prog.Holds.perform (fun _ _ _ isDrop => nomatch isDrop) (fun _ _ _ _ _ _ _ => trivial) ?_
    intro s' how opened _ _ _ answered
    cases opened with
    | ok _ => exact Prog.Holds.returns (LockDir.exec_createNew answered)
    | error error =>
      dsimp only
      split <;> exact Prog.Holds.throws trivial
  exact Prog.Holds.catchingThen creates (fun _ => made) (fun error s' _ => refused error s')

theorem replaceStaleLock_acquires {message : String} :
    Acquires caller (replaceStaleLock message) s := by
  have takesOver : ∀ path s, Acquires caller (replaceStaleLock.takeOver message path) s := by
    intro path s
    refine Acquires.create ?_ ?_
    · intro s₁ holds
      refine Safely.call nofun ?_
      exact fun _ s₂ keeps => Prog.Holds.returns (keeps holds)
    · intro error s₁
      dsimp only
      split <;> exact Prog.Holds.throws trivial
  refine Safely.call nofun ?_
  intro now s₁ _
  refine Safely.call nofun ?_
  intro renamed s₂ _
  cases renamed with
  | ok _ => exact takesOver _ s₂
  | error error =>
    dsimp only
    split
    · exact takesOver _ s₂
    · exact Prog.Holds.throws trivial

theorem lockIsStale_safe : Safely caller lockIsStale (fun _ _ => True) s := by
  refine Safely.call nofun ?_
  intro metadata s₁ _
  cases metadata with
  | ok modified =>
    refine Safely.call nofun ?_
    exact fun now s₂ _ => Prog.Holds.returns trivial
  | error error =>
    dsimp only
    split
    · exact Prog.Holds.returns trivial
    · exact Prog.Holds.throws trivial

theorem acquireLockFile_acquires {message : String} :
    Acquires caller (acquireLockFile message) s := by
  refine Acquires.create (fun s₁ holds => Prog.Holds.returns holds) ?_
  intro error s₁
  dsimp only
  split
  · refine Prog.Holds.andThen lockIsStale_safe ?_
    intro stale s₂ _
    cases stale with
    | false => exact Prog.Holds.throws trivial
    | true => exact replaceStaleLock_acquires
  · exact Prog.Holds.throws trivial

theorem createLockDir_safe : Safely caller createLockDir (fun _ _ => True) s := by
  refine Safely.call nofun ?_
  intro created s₁ _
  cases created with
  | ok _ => exact Prog.Holds.returns trivial
  | error error => exact Prog.Holds.throws trivial

theorem LockUser.acquire_acquires {user : LockUser} : Acquires caller user.acquire s := by
  cases user with
  | applyLock =>
    exact Prog.Holds.andThen createLockDir_safe fun _ _ _ => acquireLockFile_acquires
  | documentWriteLock =>
    exact Prog.Holds.andThen createLockDir_safe fun _ _ _ => acquireLockFile_acquires
  | proposalWriteLock =>
    refine Prog.Holds.andThen createLockDir_safe ?_
    intro _ s₁ _
    refine Prog.Holds.perform (fun _ _ _ isDrop => nomatch isDrop) (fun _ _ _ _ _ _ _ => trivial) ?_
    intro s' how opened _ _ _ answered
    cases opened with
    | ok _ => exact Prog.Holds.returns (LockDir.exec_createNew answered)
    | error error =>
      dsimp only
      split <;> exact Prog.Holds.throws trivial

/-- **The invariant of every run** in which holders are prompt and takeovers rename stale
files only. -/
theorem lockUsers_inv {c : Machine.Config (LockDir ι) ι LockOp.Res ServiceError Unit}
    (reached : ((lockUsers ι).system LockDir.Unheld).ReachableBy (takingOverStale ι).meets c) :
    c.shared.Inv := by
  have programs : ∀ (caller : ι) (user : LockUser) (s : LockDir ι), s.Inv → True →
      ((lockUsers ι).program caller user).Holds
        ((lockUsers ι).context (takingOverStale ι) LockDir.Inv LockDir.Rely LockDir.May caller)
        (Prog.ends (fun _ => True) fun _ _ => True) s := by
    intro caller user s _ _
    refine Prog.Holds.andThen LockUser.acquire_acquires ?_
    intro _ s₁ holds
    refine Prog.Holds.perform ?_ (fun _ _ _ _ _ _ _ => trivial) ?_
    · intro s₂ relied _ _
      exact relied ▸ holds
    · exact fun _ _ _ _ _ _ _ => Prog.Holds.returns trivial
  have ticks : ∀ (nanos : Nat) (s s' : LockDir ι), s.Inv → (takingOverStale ι).env s nanos →
      s.tick nanos = some s' → s'.Inv ∧ ∀ caller, LockDir.Rely caller s s' := by
    intro nanos s s' inv isPrompt ticked
    cases ticked
    refine ⟨⟨?_, inv.exclusive⟩, fun _ => rfl⟩
    intro caller since isHeld
    exact ⟨(inv.owns caller since isHeld).1, isPrompt caller since isHeld⟩
  have calls : ∀ (caller : ι) (op : LockOp) (how : Option String) (s : LockDir ι), s.Inv →
      (takingOverStale ι).call caller s op how → LockDir.May caller s op →
      (s.exec caller op how).2.Inv ∧
        ∀ other, other ≠ caller → LockDir.Rely other s (s.exec caller op how).2 := by
    intro caller op how s inv takesStale isMay
    exact ⟨inv.exec isMay takesStale, fun other differ => LockDir.exec_held differ⟩
  have crashes : ∀ (caller : ι) (s : LockDir ι), s.Inv → (s.crash caller).Inv ∧
      ∀ other, other ≠ caller → LockDir.Rely other s (s.crash caller) := by
    intro caller s inv
    refine ⟨inv.release caller, ?_⟩
    intro other differ
    simp [LockDir.Rely, LockDir.crash, update_of_ne differ]
  have trans : ∀ (caller : ι) (a b c : LockDir ι), LockDir.Rely caller a b →
      LockDir.Rely caller b c → LockDir.Rely caller a c :=
    fun _ _ _ _ first second => Eq.trans second first
  have stable : ∀ (caller : ι) (answer : Except ServiceError Unit) (s s' : LockDir ι),
      Prog.ends (fun _ : LockDir ι => True) (fun _ _ => True) answer s →
      LockDir.Rely caller s s' →
      Prog.ends (fun _ : LockDir ι => True) (fun _ _ => True) answer s' := by
    intro _ answer _ _ _ _
    cases answer <;> trivial
  exact (Machine.safe (fun _ => LockDir.Unheld.inv) trans stable ticks calls crashes
    (fun _ _ _ => rfl) programs reached).1

/-! ## A lock that was left behind -/

/-- The file of a caller that crashed more than `LOCK_STALE_AFTER` ago. -/
structure LockDir.Abandoned (s : LockDir ι) : Prop where
  unheld : s.Unheld
  left : s.lock.isSome
  stale : s.LockStale

/-- The calls of a caller, if nothing else happens and none of them fails. -/
def LockDir.alone (caller : ι) (op : LockOp) (s : LockDir ι) : Except ServiceError op.Res × LockDir ι :=
  s.exec caller op none

/-- The caller would be given the lock. -/
def LockDir.CanAcquire (s : LockDir ι) (user : LockUser) (caller : ι) : Prop :=
  (user.acquire.run (LockDir.alone caller) s).1 = .ok ()

theorem run_call {α : Type} {op : LockOp} {answer : op.Res} {s' : LockDir ι}
    (f : op.Res → LockProgram α) (performed : s.perform caller op = (answer, s')) :
    (Prog.perform op >>= f).run (LockDir.alone caller) s =
      (f answer).run (LockDir.alone caller) s' := by
  have called : LockDir.alone caller op s = (.ok answer, s') := by
    simp only [LockDir.alone, LockDir.exec, performed]
  exact Prog.run_bind_ok _ f (Prog.run_perform _ called)

theorem perform_createNew_locked (locked : s.lock.isSome) :
    s.perform caller .createNew = (.error .fileExists, s) := by
  obtain ⟨modified, isLock⟩ := isSome_iff_exists.mp locked
  simp only [LockDir.perform, isLock]

theorem createLockFile_run_locked (locked : s.lock.isSome) :
    createLockFile.catching.run (LockDir.alone caller) s =
      (.ok (.error ⟨.alreadyExists, "Lock already exists"⟩), s) := by
  have ran : createLockFile.run (LockDir.alone caller) s =
      (.error ⟨.alreadyExists, "Lock already exists"⟩, s) :=
    run_call _ (perform_createNew_locked locked)
  rw [Prog.run_catching, ran]

theorem createLockFile_run_free (free : s.lock = none) :
    ∃ s', createLockFile.catching.run (LockDir.alone caller) s = (.ok (.ok ()), s') := by
  have performed : s.perform caller .createNew =
      (.ok (), { s with
        lock := some s.now
        held := Function.update s.held caller (some s.now) }) := by
    simp only [LockDir.perform, free]
  have ran : createLockFile.run (LockDir.alone caller) s = (.ok (), _) := run_call _ performed
  rw [Prog.run_catching, ran]
  exact ⟨_, rfl⟩

theorem acquireLockFile_run_abandoned (abandoned : s.Abandoned) (message : String) :
    ((acquireLockFile message).run (LockDir.alone caller) s).1 = .ok () := by
  obtain ⟨modified, isLock⟩ := isSome_iff_exists.mp abandoned.left
  have old := abandoned.stale modified isLock
  have isStale : lockIsStale.run (LockDir.alone caller) s = (.ok true, s) := by
    have looked : s.perform caller .metadata = (.ok modified, s) := by
      simp only [LockDir.perform, isLock]
    rw [lockIsStale, run_call _ looked, run_call _ rfl]
    have aged : modified ≤ s.now ∧ lockStaleAfter < s.now - modified := ⟨by omega, old⟩
    simp only [aged, and_self, decide_true]
    rfl
  let moved : LockDir ι := { s with
    lock := none
    stale := Function.update s.stale (StalePath.at s.now) (some modified) }
  have renamed : s.perform caller (.rename (StalePath.at s.now)) = (.ok (), moved) := by
    simp only [LockDir.perform, isLock, moved]
  have creates : ∃ made, createLockFile.catching.run (LockDir.alone caller) moved =
      (.ok (.ok ()), made) := createLockFile_run_free rfl
  obtain ⟨made, created⟩ := creates
  have replaced : (replaceStaleLock message).run (LockDir.alone caller) s =
      (replaceStaleLock.takeOver message (StalePath.at s.now)).run (LockDir.alone caller) moved := by
    rw [replaceStaleLock, run_call _ rfl]
    exact run_call _ renamed
  rw [acquireLockFile, Prog.run_bind_ok _ _ (createLockFile_run_locked abandoned.left)]
  dsimp only
  rw [if_pos rfl, Prog.run_bind_ok _ _ isStale, if_neg (by simp), replaced, replaceStaleLock.takeOver, Prog.run_bind_ok _ _ created]
  rfl

/-- A lock that was left behind is taken over by the users that look at its age. -/
theorem LockDir.Abandoned.canAcquire_iff (abandoned : s.Abandoned) (user : LockUser) :
    s.CanAcquire user caller ↔ user ≠ .proposalWriteLock := by
  have inDir : createLockDir.run (LockDir.alone caller) s = (.ok (), s) := rfl
  cases user with
  | applyLock =>
    refine iff_of_true ?_ nofun
    rw [LockDir.CanAcquire, LockUser.acquire, Prog.run_bind_ok _ _ inDir]
    exact acquireLockFile_run_abandoned abandoned _
  | documentWriteLock =>
    refine iff_of_true ?_ nofun
    rw [LockDir.CanAcquire, LockUser.acquire, Prog.run_bind_ok _ _ inDir]
    exact acquireLockFile_run_abandoned abandoned _
  | proposalWriteLock =>
    refine iff_of_false ?_ fun differ => differ rfl
    rw [LockDir.CanAcquire, LockUser.acquire, Prog.run_bind_ok _ _ inDir,
      run_call _ (perform_createNew_locked abandoned.left)]
    nofun

/-- **Mutual exclusion and recovery.**  In every run whose holders are prompt and whose
takeovers rename a stale file only, at most one caller holds the lock, and a lock that
was left behind can be taken again by every user but the creation of a proposal. -/
theorem exclusive_and_recoverable
    {c : Machine.Config (LockDir ι) ι LockOp.Res ServiceError Unit}
    (reached : ((lockUsers ι).system LockDir.Unheld).ReachableBy (takingOverStale ι).meets c) :
    c.shared.Exclusive ∧ ∀ user caller, c.shared.Abandoned →
      (c.shared.CanAcquire user caller ↔ user ≠ .proposalWriteLock) :=
  ⟨(lockUsers_inv reached).exclusive, fun user _ abandoned => abandoned.canAcquire_iff user⟩

end Acquire

/-! ## Runs at one lock path -/

/-- Nobody has called, at the given time and with the given file at the lock path. -/
def quiet (now : Nat) (lock : Option Nat) :
    Machine.Config (LockDir Nat) Nat LockOp.Res ServiceError Unit where
  shared := { now, lock, stale := fun _ => none, held := fun _ => none }
  running _ := none

/-- A caller begins to take the lock, and makes this many calls. -/
def begins (caller : Nat) (user : LockUser) (calls : Nat) :
    List (Machine.Label Nat LockUser (Option String) Nat) :=
  .start caller user :: List.replicate calls (.call caller none)

/-- A step of a run at a standing clock that renames stale files only. -/
def renamesStale (c : Machine.Config (LockDir Nat) Nat LockOp.Res ServiceError Unit) :
    Machine.Label Nat LockUser (Option String) Nat → Bool
  | .env _ => false
  | .call caller _ =>
    match c.running caller with
    | some (.call (.rename _) _) =>
      c.shared.lock.all fun modified => lockStaleAfter < c.shared.now - modified
    | _ => true
  | _ => true

theorem meets_of_renamesStale (c : Machine.Config (LockDir Nat) Nat LockOp.Res ServiceError Unit)
    (label : Machine.Label Nat LockUser (Option String) Nat) (isOk : renamesStale c label = true) :
    (takingOverStale Nat).meets c label := by
  cases label with
  | call caller how =>
    rintro op rest isRunning path rfl modified isLock
    simp only [renamesStale, isRunning, isLock, all_some, decide_eq_true_eq] at isOk
    exact isOk
  | env nanos => cases isOk
  | _ => trivial

/-- A file left long ago is taken over: the caller makes the directory, finds the file,
looks at it and twice at the clock, renames it and makes its own. -/
theorem takeover_exclusive :
    ∃ c, ((lockUsers Nat).system LockDir.Unheld).ReachableBy (takingOverStale Nat).meets c ∧
      (c.shared.held 0).isSome ∧ c.shared.Exclusive := by
  have ran : (System.runWhile renamesStale (lockUsers Nat).next
      (quiet (lockStaleAfter + 1) (some 0)) (begins 0 .applyLock 7)).map
        (fun c => (c.shared.held 0).isSome) = some true := by
    decide +kernel
  obtain ⟨c, reached, holds⟩ := map_eq_some_iff.mp ran
  have starts : ((lockUsers Nat).system LockDir.Unheld).ReachableBy
      (fun c label => renamesStale c label) (quiet (lockStaleAfter + 1) (some 0)) :=
    .start ⟨fun _ => rfl, fun _ => rfl⟩
  have reachable : ((lockUsers Nat).system LockDir.Unheld).ReachableBy
      (takingOverStale Nat).meets c :=
    (System.reachableBy_of_runWhile starts reached).mono meets_of_renamesStale
  exact ⟨c, reachable, holds, (exclusive_and_recoverable reachable).1⟩

/-- Caller `1` finds the lock of caller `0`, which then drops it, so that to `1` it counts
as stale; caller `2` takes the lock, and `1` renames its file away and takes it too.  And a
file left long ago stays in the way of a proposal. -/
theorem two_holders_and_proposal_refused :
    (∃ c, ((lockUsers Nat).system LockDir.Unheld).ReachableBy (promptly Nat).meets c ∧
      ¬ c.shared.Exclusive) ∧
    ∃ c, ((lockUsers Nat).system LockDir.Unheld).ReachableBy (promptly Nat).meets c ∧
      c.shared.Abandoned ∧ ¬ c.shared.CanAcquire .proposalWriteLock 0 := by
  constructor
  · have ran : (System.run (lockUsers Nat).next (quiet 0 none)
        (begins 0 .applyLock 2 ++ begins 1 .applyLock 2 ++ [.call 0 none, .call 1 none] ++
          begins 2 .applyLock 2 ++ List.replicate 3 (.call 1 none))).map
        (fun c => (c.shared.held 1, c.shared.held 2)) = some (some 0, some 0) := by
      decide +kernel
    obtain ⟨c, reached, holders⟩ := map_eq_some_iff.mp ran
    obtain ⟨firstHolds, secondHolds⟩ := Prod.mk.inj holders
    refine ⟨c, System.ReachableBy.run (.start ⟨fun _ => rfl, fun _ => rfl⟩) ?_ reached, ?_⟩
    · intro label member s
      cases label with
      | env nanos => simp [begins] at member
      | call caller how => exact fun _ _ _ => trivial
      | _ => trivial
    · intro exclusive
      have same := exclusive 1 2 (by simp [firstHolds]) (by simp [secondHolds])
      cases same
  · have abandoned : (quiet (lockStaleAfter + 1) (some 0)).shared.Abandoned := by
      refine ⟨fun _ => rfl, rfl, ?_⟩
      rintro modified isLock
      cases isLock
      exact Nat.lt_succ_self _
    refine ⟨_, .start ⟨fun _ => rfl, fun _ => rfl⟩, abandoned, ?_⟩
    rw [abandoned.canAcquire_iff]
    exact fun differ => differ rfl

end Kuku.Knowledge
