/-
# Storage.Sessions -- the storage transactions among each other

The machine of all storage transactions on the rows of one user, and what holds in all of
its runs.

`Inv` says that what is committed is good and that every transaction has only made the row
versions it may: revisions with the lock of the account row, inserts without it.  `Rely` is
what a transaction can rely on between two calls, and `May` is the calls it may make.  A
call that may be made keeps the invariant, and the others can rely on it
(`call_keeps`).
-/
import Kuku.Storage.Versions
import Kuku.Theory.Family

namespace Kuku.Storage

open Kuku.Theory List
open Kuku.Server (Bytes Uuid KukuSyncCommit PublishCommitParams)

/-! ## The machine -/

/-- The requests of a user. -/
inductive Command where
  | createWorkspace (cryptoVersion : String)
  | deleteWorkspace (workspaceID : Uuid)
  | reserveObjectIDs (workspaceID deviceID : Uuid) (requests : List ObjectReservationRequest)
  | createObjectUploadBatch (workspaceID deviceID : Uuid) (uploadAttemptID : String)
      (requests : List UploadObjectRequest)
  | completeObjectUploadBatch (workspaceID deviceID : Uuid) (uploadAttemptID : String)
      (requests : List CompletedObjectUploadRequest)
  | uploadObjectBytesDev (workspaceID deviceID : Uuid) (objectID ciphertextSHA256 : String)
      (sizeBytes : Int) (encryptedBlob : Bytes)
  | runWorkspaceGC (workspaceID : Uuid) (options : SyncGCOptions)
  | recalculateSyncUsage (workspaceID : Uuid)
  | publishCommit (params : PublishCommitParams)

/-- What happens outside these transactions: devices are registered and revoked, and clients
put bytes at the URLs they have been given. -/
inductive Event where
  | devices (rows : List DeviceRow)
  | put (storageKey : String) (metadata : BlobMetadata)

def ignoring {α : Type} (p : Program α) : Program Unit := do
  let _ ← p
  pure ()

def commandProgram (cfg : Config) (driver : Provider) (userID : Uuid) : Command → Program Unit
  | .createWorkspace cryptoVersion => ignoring (createWorkspace cfg cryptoVersion)
  | .deleteWorkspace workspaceID => ignoring (deleteWorkspace workspaceID)
  | .reserveObjectIDs workspaceID deviceID requests =>
    ignoring (reserveObjectIDs cfg driver userID workspaceID deviceID requests)
  | .createObjectUploadBatch workspaceID deviceID attempt requests =>
    ignoring (createObjectUploadBatch cfg driver workspaceID deviceID attempt requests)
  | .completeObjectUploadBatch workspaceID deviceID attempt requests =>
    ignoring (completeObjectUploadBatch driver workspaceID deviceID attempt requests)
  | .uploadObjectBytesDev workspaceID deviceID objectID sha size blob =>
    ignoring (uploadObjectBytesDev cfg workspaceID deviceID objectID sha size blob)
  | .runWorkspaceGC workspaceID options => ignoring (runWorkspaceGC workspaceID options)
  | .recalculateSyncUsage workspaceID => ignoring (recalculateSyncUsage workspaceID)
  | .publishCommit params => ignoring (publishCommit params)

section Machine

variable {ι : Type} [DecidableEq ι]

def happen (s : State ι) : Event → State ι
  | .devices rows => { s with db := { s.db with devices := rows } }
  | .put storageKey metadata => s.setBlob .s3Compatible storageKey (some metadata)

/-- The servers on the rows of one user. -/
def machine (cfg : Config) (driver : ι → Provider) :
    Machine (State ι) ι (Uuid × Command) How Event Call.Res StorageError Unit where
  program session command := commandProgram cfg (driver session) command.1 command.2
  exec session call how s := s.exec driver session call how
  crash session s := s.close session
  env event s := some (happen s event)

/-- Nothing is there, and nothing is under way. -/
def emptyState (s : State ι) : Prop := s = ⟨Db.empty, fun _ _ => none, fun _ => [], none⟩

/-- What a statement must be so that the run stays in its scope. -/
def Lawful (cfg : Config) (scope : Scope) (db : Db) : Call → Prop
  | .sql (.addUsage workspaceID storage count pending) =>
    (scope = .usage → db.isLive workspaceID) ∧
    (scope = .quota → count = 1 → pending = 0 →
      (∀ row, db.usage workspaceID = some row →
        row.storageBytes + row.pendingUploadBytes + storage ≤ cfg.maxStorageBytesPerWorkspace) ∧
      ∀ row, db.account = some row →
        row.totalStorageBytes + row.pendingUploadBytes + storage ≤ cfg.maxTotalStorageBytesPerUser)
  | _ => True

/-- The runs of a scope.  A statement does not run while it waits for a lock. -/
def condition (cfg : Config) (scope : Scope) :
    Machine.Condition (State ι) ι (Uuid × Command) How Event Call where
  start _ _ command := scope = .quota → ∀ workspaceID, command.2 ≠ .deleteWorkspace workspaceID
  call session s call _ := ¬ s.Waits session call ∧ Lawful cfg scope (s.view session) call
  env _ _ := True

end Machine

/-! ## The invariant -/

section Invariant

variable {ι : Type} (cfg : Config) (scope : Scope)

/-- The row versions a session may have made. -/
def Shape (s : State ι) (session : ι) : Prop :=
  (s.accountLock = some session → ∀ write ∈ s.writes session, Revises s.db write) ∧
  (s.accountLock ≠ some session → Inserts s.db (s.writes session))

structure Inv (s : State ι) : Prop where
  good : Good cfg scope s.db s.blobs
  shape : ∀ session, Shape s session

/-- What the other sessions do between two calls of a session. -/
structure Rely (session : ι) (s s' : State ι) : Prop where
  writes : s'.writes session = s.writes session
  lock : s'.accountLock = some session ↔ s.accountLock = some session
  keeps : Keeps s.db s'.db
  held : s.accountLock = some session → Extends s.db s'.db ∧ Grows s.blobs s'.blobs

/-- What a transaction must have done to commit, if it has the lock. -/
structure Ready (s : State ι) (session : ι) : Prop where
  keeps : Keeps s.db (s.view session)
  tables : ∀ workspaceID, Midway cfg scope workspaceID .none (s.view session) s.blobs

/-- The calls a session may make. -/
def May [DecidableEq ι] (session : ι) (s : State ι) : Call → Prop
  | .sql stmt => (∀ how, Shape (s.statement session how stmt).2 session) ∧
      (scope ≠ .objects → ∀ how, (stmt.query how (s.view session)).1 ≠ .error .checkViolation)
  | .deleteBlob storageKey => s.accountLock = some session ∧
      ∀ row ∈ s.db.objects, row.IsAvailable → row.storageKey ≠ storageKey
  | .commit => s.accountLock = some session → Ready cfg scope s session
  | _ => True

end Invariant

section Steps

variable {ι : Type} {cfg : Config} {scope : Scope} {s s' : State ι} {session other : ι}
  {driver : ι → Provider}

theorem Rely.refl (isInv : Inv cfg scope s) : Rely session s s :=
  ⟨rfl, Iff.rfl, Keeps.refl, fun _ => ⟨Extends.refl (isInv.good.tables 0).sound, fun _ _ => id⟩⟩

theorem Rely.trans {s'' : State ι} (first : Rely session s s') (second : Rely session s' s'') :
    Rely session s s'' where
  writes := second.writes.trans first.writes
  lock := second.lock.trans first.lock
  keeps := first.keeps.trans second.keeps
  held := by
    intro holds
    obtain ⟨more, grows⟩ := first.held holds
    obtain ⟨more', grows'⟩ := second.held (first.lock.mpr holds)
    exact ⟨more.trans more', fun provider key isThere => grows' _ _ (grows _ _ isThere)⟩

theorem Good.extends {db db' : Db} {blobs blobs' : Blobs} (good : Good cfg scope db blobs)
    (more : Extends db db') (grows : Grows blobs blobs')
    (commits : ∀ commit ∈ db'.commits, commit ∈ db.commits ∨ Published db commit) :
    Good cfg scope db' blobs' where
  tables workspaceID := (good.tables workspaceID).extends more grows
  published commit member := by
    rcases commits commit member with old | published
    · exact (good.published commit old).keeps more.keeps
    · exact published.keeps more.keeps

theorem Good.keeps {db db' : Db} {blobs : Blobs} (good : Good cfg scope db blobs)
    (tables : ∀ workspaceID, Midway cfg scope workspaceID .none db' blobs) (keeps : Keeps db db')
    (commits : db'.commits = db.commits) : Good cfg scope db' blobs where
  tables
  published commit member := by
    rw [commits] at member
    exact (good.published commit member).keeps keeps

/-- A session that has kept its row versions, and its lock if it has one. -/
theorem Shape.of_rely (shape : Shape s session) (relied : Rely session s s') :
    Shape s' session := by
  refine ⟨?_, ?_⟩
  · intro holds write member
    have held := relied.lock.mp holds
    rw [relied.writes] at member
    exact (shape.1 held write member).extends (relied.held held).1
  · intro free
    have wasFree : s.accountLock ≠ some session := fun held => free (relied.lock.mpr held)
    rw [relied.writes]
    exact (shape.2 wasFree).keeps relied.keeps

/-- A step that is good for the tables, for its own session and for the others. -/
theorem Inv.step (isInv : Inv cfg scope s) (good : Good cfg scope s'.db s'.blobs)
    (own : Shape s' session) (relied : ∀ other, other ≠ session → Rely other s s') :
    Inv cfg scope s' := by
  refine ⟨good, ?_⟩
  intro other
  by_cases same : other = session
  · rw [same]
    exact own
  · exact (isInv.shape other).of_rely (relied other same)

/-- What the other sessions see of a step that leaves the tables and blobs alone. -/
theorem rely_of_same (isInv : Inv cfg scope s) (db : s'.db = s.db) (blobs : s'.blobs = s.blobs)
    (writes : s'.writes other = s.writes other)
    (lock : s'.accountLock = some other ↔ s.accountLock = some other) : Rely other s s' := by
  refine ⟨writes, lock, ?_, ?_⟩
  · rw [db]
    exact Keeps.refl
  · intro _
    rw [db, blobs]
    exact ⟨Extends.refl (isInv.good.tables 0).sound, fun _ _ => id⟩

theorem blobs_setBlob {provider : Provider} {storageKey : String} {blob : Option BlobMetadata}
    {p : Provider} {k : String} (differ : ¬ (p = provider ∧ k = storageKey)) :
    (s.setBlob provider storageKey blob).blobs p k = s.blobs p k := by
  simp only [State.setBlob]
  by_cases samePlace : p = provider
  · subst samePlace
    have sameKey : k ≠ storageKey := fun same => differ ⟨rfl, same⟩
    simp [sameKey]
  · simp [samePlace]

@[simp] theorem blobs_setBlob_self {provider : Provider} {storageKey : String}
    {blob : Option BlobMetadata} :
    (s.setBlob provider storageKey blob).blobs provider storageKey = blob := by
  simp [State.setBlob]

/-- A blob is written, or deleted where no available object has it. -/
theorem Good.setBlob {provider : Provider} {storageKey : String} {blob : Option BlobMetadata}
    (good : Good cfg scope s.db s.blobs)
    (stored : ∀ row ∈ s.db.objects, row.IsAvailable → blob.isSome ∨ row.storageKey ≠ storageKey) :
    Good cfg scope s.db (s.setBlob provider storageKey blob).blobs := by
  refine ⟨?_, good.published⟩
  intro workspaceID
  have tables := good.tables workspaceID
  refine ⟨tables.sound, tables.drifts, tables.within, tables.live, ?_⟩
  intro row member isAvailable
  by_cases isIt : row.storageProvider = provider ∧ row.storageKey = storageKey
  · rcases stored row member isAvailable with isThere | differ
    · rw [isIt.1, isIt.2, blobs_setBlob_self]
      exact isThere
    · exact absurd isIt.2 differ
  · rw [blobs_setBlob isIt]
    exact tables.stored row member isAvailable

theorem grows_setBlob {provider : Provider} {storageKey : String} {blob : Option BlobMetadata}
    (written : blob.isSome) : Grows s.blobs (s.setBlob provider storageKey blob).blobs := by
  intro p k isThere
  by_cases isIt : p = provider ∧ k = storageKey
  · rw [isIt.1, isIt.2, blobs_setBlob_self]
    exact written
  · rw [blobs_setBlob isIt]
    exact isThere

theorem rely_setBlob {provider : Provider} {storageKey : String} {blob : Option BlobMetadata}
    (isInv : Inv cfg scope s) (held : s.accountLock = some other → blob.isSome) :
    Rely other s (s.setBlob provider storageKey blob) := by
  refine ⟨rfl, Iff.rfl, Keeps.refl, ?_⟩
  intro isHeld
  exact ⟨Extends.refl (isInv.good.tables 0).sound, grows_setBlob (held isHeld)⟩

theorem putBlob_keeps {provider : Provider} {storageKey : String} {metadata : BlobMetadata}
    (isInv : Inv cfg scope s) : Inv cfg scope (s.setBlob provider storageKey (some metadata)) ∧
      ∀ other, Rely other s (s.setBlob provider storageKey (some metadata)) := by
  have relied : ∀ other, Rely other s (s.setBlob provider storageKey (some metadata)) :=
    fun other => rely_setBlob isInv fun _ => rfl
  have good : Good cfg scope s.db (s.setBlob provider storageKey (some metadata)).blobs :=
    isInv.good.setBlob fun _ _ _ => .inl rfl
  exact ⟨⟨good, fun session => (isInv.shape session).of_rely (relied session)⟩, relied⟩

theorem inv_of_empty (isEmpty : emptyState s) : Inv cfg scope s := by
  subst isEmpty
  refine ⟨⟨?_, by simp [Db.empty]⟩, ?_⟩
  · intro workspaceID
    refine ⟨⟨?_, ?_, ?_, ?_, ?_, ?_, ?_⟩, ?_, ?_, ?_, ?_⟩
    · simp [Table.Keyed, Db.empty]
    · simp [Table.Keyed, Db.empty]
    · simp [Table.Keyed, Db.empty]
    · simp [Table.Keyed, Db.empty]
    · simp [Db.empty]
    · simp [Db.empty]
    · simp [Db.empty]
    · intro _
      refine ⟨?_, ?_, ?_, ?_, ?_⟩ <;> simp [Db.empty, Db.usage, Table.get]
    · intro _
      refine ⟨?_, ?_, ?_⟩ <;> simp [Db.empty, Db.usage, Table.get]
    · simp [Db.empty]
    · simp [Db.empty]
  · intro session
    refine ⟨?_, fun _ => Inserts.nil⟩
    intro held
    cases held

/-- What happens outside keeps the invariant, and every session can rely on it. -/
theorem happen_keeps {event : Event} (isInv : Inv cfg scope s) :
    Inv cfg scope (happen s event) ∧ ∀ session, Rely session s (happen s event) := by
  cases event with
  | put storageKey metadata => exact putBlob_keeps isInv
  | devices rows =>
    have sound := (isInv.good.tables 0).sound
    have more : Extends s.db { s.db with devices := rows } :=
      ⟨rfl, rfl, rfl, ⟨[], by simp, by simp⟩, sound.objects, sound.storageKeys⟩
    have relied : ∀ session, Rely session s (happen s (.devices rows)) :=
      fun session => ⟨rfl, Iff.rfl, more.keeps, fun _ => ⟨more, fun _ _ => id⟩⟩
    have good : Good cfg scope { s.db with devices := rows } s.blobs :=
      isInv.good.extends more (fun _ _ => id) fun commit member => .inl member
    exact ⟨⟨good, fun session => (isInv.shape session).of_rely (relied session)⟩, relied⟩

variable [DecidableEq ι]

theorem close_lock (differ : other ≠ session) :
    (s.close session).accountLock = some other ↔ s.accountLock = some other := by
  simp only [State.close]
  split
  · rename_i held
    rw [held]
    simp [differ.symm]
  · exact Iff.rfl

theorem close_writes (differ : other ≠ session) :
    (s.close session).writes other = s.writes other := by
  simp [State.close, differ]

theorem shape_of_closed {db : Db} : Shape { s.close session with db := db } session := by
  refine ⟨?_, ?_⟩
  · intro held
    simp only [State.close] at held
    split at held
    · cases held
    · contradiction
  · intro _
    simp only [State.close, Function.update_self]
    exact Inserts.nil

variable (isInv : Inv cfg scope s)

include isInv

/-- The end of a transaction that has changed nothing. -/
theorem close_keeps : Inv cfg scope (s.close session) ∧
    ∀ other, other ≠ session → Rely other s (s.close session) := by
  have relied : ∀ other, other ≠ session → Rely other s (s.close session) :=
    fun other differ => rely_of_same isInv rfl rfl (close_writes differ) (close_lock differ)
  exact ⟨isInv.step isInv.good shape_of_closed relied, relied⟩

theorem commit_keeps (may : May cfg scope session s .commit) :
    Inv cfg scope (s.commit session).2 ∧
      ∀ other, other ≠ session → Rely other s (s.commit session).2 := by
  unfold State.commit
  split
  · exact close_keeps isInv
  · rename_i noConflict
    by_cases held : s.accountLock = some session
    · -- the session with the lock: nobody else has it, so nobody relies on the tables
      obtain ⟨keeps, tables⟩ := may held
      have relied : ∀ other, other ≠ session →
          Rely other s { s.close session with db := s.view session } := by
        intro other differ
        refine ⟨close_writes differ, close_lock differ, keeps, ?_⟩
        intro otherHolds
        rw [held] at otherHolds
        exact absurd (Option.some.inj otherHolds).symm differ
      have commits : (s.view session).commits = s.db.commits :=
        commits_view ((isInv.shape session).1 held)
      exact ⟨isInv.step (isInv.good.keeps tables keeps commits) shape_of_closed relied, relied⟩
    · have inserts := (isInv.shape session).2 held
      have fresh : ∀ row ∈ newRows (s.writes session), s.db.taken row = false := by
        intro row member
        by_contra taken
        apply noConflict
        refine any_eq_true.mpr ⟨_, mem_newRows.mp member, ?_⟩
        simpa [State.conflicts] using taken
      obtain ⟨more, commits⟩ := inserts.extends (isInv.good.tables 0).sound fresh
      have relied : ∀ other, other ≠ session →
          Rely other s { s.close session with db := s.view session } :=
        fun other differ => ⟨close_writes differ, close_lock differ, more.keeps,
          fun _ => ⟨more, fun _ _ => id⟩⟩
      have good : Good cfg scope (s.view session) s.blobs := by
        refine isInv.good.extends more (fun _ _ => id) ?_
        intro commit member
        rw [State.view, commits] at member
        rcases mem_append.mp member with old | new
        · exact .inl old
        · exact .inr (inserts.published commit new)
      exact ⟨isInv.step good shape_of_closed relied, relied⟩

theorem deleteBlob_keeps {provider : Provider} {storageKey : String}
    (may : May cfg scope session s (.deleteBlob storageKey)) :
    Inv cfg scope (s.setBlob provider storageKey none) ∧
      ∀ other, other ≠ session → Rely other s (s.setBlob provider storageKey none) := by
  have relied : ∀ other, other ≠ session → Rely other s (s.setBlob provider storageKey none) := by
    intro other differ
    refine rely_setBlob isInv ?_
    intro isHeld
    rw [may.1] at isHeld
    exact absurd (Option.some.inj isHeld).symm differ
  have good : Good cfg scope s.db (s.setBlob provider storageKey none).blobs :=
    isInv.good.setBlob fun row member isAvailable => .inr (may.2 row member isAvailable)
  exact ⟨isInv.step good (isInv.shape session) relied, relied⟩

theorem statement_keeps {how : How} {stmt : Stmt} (notWaiting : ¬ s.Waits session (.sql stmt))
    (may : May cfg scope session s (.sql stmt)) :
    Inv cfg scope (s.statement session how stmt).2 ∧
      ∀ other, other ≠ session → Rely other s (s.statement session how stmt).2 := by
  have relied : ∀ other, other ≠ session → Rely other s (s.statement session how stmt).2 := by
    intro other differ
    refine rely_of_same isInv rfl rfl ?_ ?_
    · simp [State.statement, differ]
    · -- a lock is only taken when no other session has it
      simp only [State.statement]
      split
      · rename_i locks
        simp only [State.Waits, locks, true_and, not_and_or, not_not] at notWaiting
        rcases notWaiting with free | mine
        · simp [free, differ.symm]
        · simp [mine, differ.symm]
      · exact Iff.rfl
  exact ⟨isInv.step isInv.good (may.1 how) relied, relied⟩

/-- **A call that may be made** keeps the invariant, and the others can rely on it. -/
theorem call_keeps {call : Call} {how : How} (allowed : ¬ s.Waits session call)
    (may : May cfg scope session s call) :
    Inv cfg scope (s.exec driver session call how).2 ∧
      ∀ other, other ≠ session → Rely other s (s.exec driver session call how).2 := by
  have same : Inv cfg scope s ∧ ∀ other, other ≠ session → Rely other s s :=
    ⟨isInv, fun _ _ => Rely.refl isInv⟩
  unfold State.exec
  split
  · -- the call fails; a commit or a deletion may have happened all the same
    cases call with
    | commit =>
      simp only [State.fault]
      split
      · exact commit_keeps isInv may
      · exact close_keeps isInv
    | rollback => exact close_keeps isInv
    | deleteBlob storageKey =>
      simp only [State.fault]
      split
      · exact deleteBlob_keeps isInv may
      · exact same
    | begin => exact same
    | sql stmt => exact same
    | now => exact same
    | head storageKey => exact same
    | putBlob storageKey metadata => exact same
    | presignPut storageKey sha size => exact same
    | presignGet storageKey => exact same
  · cases call with
    | begin => exact close_keeps isInv
    | commit => exact commit_keeps isInv may
    | rollback => exact close_keeps isInv
    | deleteBlob storageKey => exact deleteBlob_keeps isInv may
    | sql stmt => exact statement_keeps isInv allowed may
    | putBlob storageKey metadata =>
      simp only [State.perform]
      split
      · exact ⟨(putBlob_keeps isInv).1, fun other _ => (putBlob_keeps isInv).2 other⟩
      · exact same
    | now => exact same
    | head storageKey => exact same
    | presignPut storageKey sha size => exact same
    | presignGet storageKey => exact same

end Steps

end Kuku.Storage
