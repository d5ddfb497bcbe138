/-
# Storage.Rules -- reasoning about one storage transaction

A transaction passes through three stages.  It is `Idle` while it reads without the lock,
`Holding` once it has the lock of the account row, and then knows its tables up to the
inserts of others (`Steady` facts), or it inserts without ever taking the lock.  There is a
rule for the next call in each stage, and `withTx_safely` for the end of the transaction:
it only has to be ready to commit.
-/
import Kuku.Storage.Sessions

namespace Kuku.Storage

open Kuku.Theory List Option
open Kuku.Server (Uuid)

/-! ## What the statements do -/

section Queries

variable (how : How) (db : Db)

theorem query_ensure : Stmt.ensureSyncUsageAccount.query how db =
    (.ok db.ensured, [.account db.ensured]) := by
  unfold Stmt.query Db.ensured
  cases db.account with
  | none => rfl
  | some row => rfl

theorem query_createWorkspace :
    (db.workspace how.fresh = none ∧ Stmt.createSyncWorkspace.query how db =
        (.ok ⟨how.fresh, false⟩, [.newWorkspace ⟨how.fresh, false⟩])) ∨
      Stmt.createSyncWorkspace.query how db = (.error .uniqueViolation, []) := by
  simp only [Stmt.query]
  cases db.workspace how.fresh with
  | none => exact .inl ⟨rfl, rfl⟩
  | some row => exact .inr rfl

theorem query_createUsage (workspaceID : Uuid) :
    (Stmt.createSyncUsageWorkspace workspaceID).query how db =
        (.ok ⟨workspaceID, 0, 0, 0⟩, [.usage ⟨workspaceID, 0, 0, 0⟩]) ∨
      (Stmt.createSyncUsageWorkspace workspaceID).query how db = (.error .uniqueViolation, []) := by
  simp only [Stmt.query]
  cases db.usage workspaceID with
  | none => exact .inl rfl
  | some row => exact .inr rfl

theorem query_softDelete (id : Uuid) :
    (∃ row, db.workspace id = some row ∧ (Stmt.softDeleteSyncWorkspace id).query how db =
        (.ok (), [.workspace { row with deleted := true }])) ∨
      (Stmt.softDeleteSyncWorkspace id).query how db = (.ok (), []) := by
  simp only [Stmt.query]
  cases found : (db.workspace id).filter fun row => !row.deleted with
  | none => exact .inr rfl
  | some row => exact .inl ⟨row, (filter_eq_some_iff.mp found).1, rfl⟩

theorem query_recalculateWorkspace (workspaceID : Uuid) :
    (∃ row, db.usage workspaceID = some row ∧
        (Stmt.recalculateSyncUsageWorkspace workspaceID).query how db =
          (.ok (some (db.counted workspaceID)), [.usage (db.counted workspaceID)])) ∨
      (Stmt.recalculateSyncUsageWorkspace workspaceID).query how db = (.ok none, []) ∨
      (Stmt.recalculateSyncUsageWorkspace workspaceID).query how db = (.error .outOfRange, []) := by
  simp only [Stmt.query]
  cases db.usage workspaceID with
  | none => exact .inr (.inl rfl)
  | some row =>
    simp only
    split
    · exact .inl ⟨row, rfl, rfl⟩
    · exact .inr (.inr rfl)

theorem query_recalculateAccount :
    (∃ row, db.account = some row ∧ Stmt.recalculateSyncUsageAccount.query how db =
        (.ok (some db.accounted), [.account db.accounted])) ∨
      Stmt.recalculateSyncUsageAccount.query how db = (.ok none, []) ∨
      Stmt.recalculateSyncUsageAccount.query how db = (.error .outOfRange, []) := by
  simp only [Stmt.query]
  cases db.account with
  | none => exact .inr (.inl rfl)
  | some row =>
    simp only
    split
    · exact .inl ⟨row, rfl, rfl⟩
    · exact .inr (.inr rfl)

theorem query_addUsage {workspaceID : Uuid} {row : UsageRow}
    (found : db.usage workspaceID = some row) (a b c : Int) :
    (Stmt.addUsage workspaceID a b c).query how db = (.ok (), [.usage (row.add a b c)]) ∨
      ∃ error, (Stmt.addUsage workspaceID a b c).query how db = (.error error, []) ∧
        (error = .checkViolation → (row.add a b c).valid = false) := by
  simp only [Stmt.query, found]
  split
  · exact .inr ⟨_, rfl, fun isIt => by cases isIt⟩
  · split
    · rename_i invalid
      exact .inr ⟨_, rfl, fun _ => invalid⟩
    · exact .inl rfl

theorem query_addAccount {row : AccountRow} (found : db.account = some row) (a b c : Int) :
    (Stmt.addAccountUsage a b c).query how db = (.ok (), [.account (row.add a b c)]) ∨
      ∃ error, (Stmt.addAccountUsage a b c).query how db = (.error error, []) ∧
        (error = .checkViolation → (row.add a b c).valid = false) := by
  simp only [Stmt.query, found]
  split
  · exact .inr ⟨_, rfl, fun isIt => by cases isIt⟩
  · split
    · rename_i invalid
      exact .inr ⟨_, rfl, fun _ => invalid⟩
    · exact .inl rfl

end Queries

/-! ## Stages of a transaction -/

section Stages

variable {ι : Type} {session : ι} {known : List Uuid} {s s' : State ι}

/-- The transaction has only read so far; the workspaces it has found are there. -/
structure Idle (session : ι) (known : List Uuid) (s : State ι) : Prop where
  free : s.accountLock ≠ some session
  writes : s.writes session = []
  known : ∀ id ∈ known, (s.db.workspace id).isSome

theorem Idle.rely (idle : Idle session known s) (relied : Rely session s s') :
    Idle session known s' where
  free held := idle.free (relied.lock.mp held)
  writes := relied.writes.trans idle.writes
  known id member := relied.keeps.workspaces id (idle.known id member)

theorem Idle.view (idle : Idle session known s) : s.view session = s.db := by
  unfold State.view
  rw [idle.writes]
  rfl

/-- A fact about a transaction's tables. -/
abbrev Fact := Db → Blobs → Prop

/-- The inserts of others do not change it. -/
def Steady (P : Fact) : Prop :=
  ∀ db db' blobs blobs', Extends db db' → Grows blobs blobs' → P db blobs → P db' blobs'

/-- The transaction has the lock, and knows a fact about its tables. -/
structure Holding (session : ι) (P : Fact) (s : State ι) : Prop where
  lock : s.accountLock = some session
  revises : ∀ write ∈ s.writes session, Revises s.db write
  keeps : Keeps s.db (s.view session)
  fact : P (s.view session) s.blobs

theorem Holding.rely {P : Fact} (holding : Holding session P s) (steady : Steady P)
    (relied : Rely session s s') : Holding session P s' := by
  obtain ⟨more, grows⟩ := relied.held holding.lock
  have views : Extends (s.view session) (s'.view session) := by
    unfold State.view
    rw [relied.writes]
    exact more.view holding.revises
  refine ⟨relied.lock.mpr holding.lock, ?_, ?_, steady _ _ _ _ views grows holding.fact⟩
  · intro write member
    rw [relied.writes] at member
    exact (holding.revises write member).extends more
  · refine ⟨?_, ?_⟩
    · intro id isThere
      rw [more.workspace] at isThere
      rw [views.workspace]
      exact holding.keeps.workspaces id isThere
    · intro row member isAvailable
      rcases more.mem_objects member with old | ⟨reserved, -, -⟩
      · exact views.mem (holding.keeps.available row old isAvailable)
      · rw [isAvailable.1] at reserved
        cases reserved

theorem Holding.mono {P Q : Fact} (holding : Holding session P s)
    (weaker : ∀ db blobs, P db blobs → Q db blobs) : Holding session Q s :=
  { holding with fact := weaker _ _ holding.fact }

theorem Steady.and {P Q : Fact} (first : Steady P) (second : Steady Q) :
    Steady fun db blobs => P db blobs ∧ Q db blobs :=
  fun db db' blobs blobs' more grows both =>
    ⟨first db db' blobs blobs' more grows both.1, second db db' blobs blobs' more grows both.2⟩

theorem steady_midway {cfg : Config} {scope : Scope} {workspaceID : Uuid} {δ : Drift} :
    Steady (Midway cfg scope workspaceID δ) :=
  fun _ _ _ _ more grows midway => midway.extends more grows

theorem steady_account {row : AccountRow} : Steady fun db _ => db.account = some row := by
  intro db db' _ _ more _ found
  rw [more.account]
  exact found

theorem steady_workspace {workspaceID : Uuid} :
    Steady fun db _ => (db.workspace workspaceID).isSome := by
  intro db db' _ _ more _ found
  rw [more.workspace]
  exact found

theorem steady_object {workspaceID : Uuid} {objectID : String} {row : ObjectRow} :
    Steady fun db _ => db.object workspaceID objectID = some row :=
  fun _ _ _ _ more _ found => more.object found

theorem steady_blob {provider : Provider} {storageKey : String} :
    Steady fun _ blobs => (blobs provider storageKey).isSome :=
  fun _ _ _ _ _ grows isThere => grows _ _ isThere

end Stages

section Rules

variable {ι : Type} [DecidableEq ι] (cfg : Config) (scope : Scope) (driver : ι → Provider)
  (session : ι)

/-- What a transaction is proved against. -/
abbrev surroundings : Prog.Context How (State ι) Call.Res StorageError :=
  (machine cfg driver).context (condition cfg scope) (Inv cfg scope) Rely (May cfg scope) session

/-- A program only makes calls it may make, and returns with `post`. -/
def Safely {α : Type} (post : α → State ι → Prop) (p : Program α) (s : State ι) : Prop :=
  p.Holds (surroundings cfg scope driver session) (Prog.ends (fun _ => True) post) s

variable {cfg scope driver session} {s : State ι}

theorem Safely.returns {α : Type} {post : α → State ι → Prop} {value : α} (reached : post value s) :
    Safely cfg scope driver session post (pure value) s :=
  Prog.Holds.returns reached

theorem Safely.fails {α : Type} {post : α → State ι → Prop} {error : StorageError} :
    Safely cfg scope driver session post (fail error) s :=
  Prog.Holds.throws trivial

theorem Safely.andThen {α β : Type} {middle : α → State ι → Prop} {post : β → State ι → Prop}
    {p : Program α} {f : α → Program β} (first : Safely cfg scope driver session middle p s)
    (second : ∀ value s', middle value s' → Safely cfg scope driver session post (f value) s') :
    Safely cfg scope driver session post (p >>= f) s :=
  Prog.Holds.andThen first second

theorem Safely.mono {α : Type} {post post' : α → State ι → Prop} {p : Program α}
    (safely : Safely cfg scope driver session post p s)
    (weaker : ∀ value s, post value s → post' value s) :
    Safely cfg scope driver session post' p s := by
  refine Prog.Holds.mono safely ?_
  intro answer s reached
  cases answer with
  | ok value => exact weaker value s reached
  | error error => exact reached

theorem Safely.ofExcept {α β : Type} {post : β → State ι → Prop} {result : Except StorageError α}
    {f : α → Program β}
    (continues : ∀ value, result = .ok value → Safely cfg scope driver session post (f value) s) :
    Safely cfg scope driver session post (Prog.ofExcept result >>= f) s :=
  Prog.Holds.exceptThen trivial continues

theorem Safely.orNoRows {α β : Type} {post : β → State ι → Prop} {found : Option α}
    {f : α → Program β}
    (continues : ∀ value, found = some value → Safely cfg scope driver session post (f value) s) :
    Safely cfg scope driver session post (orNoRows found >>= f) s := by
  cases found with
  | none => exact Safely.fails
  | some value => exact continues value rfl

theorem Safely.call {β : Type} {post : β → State ι → Prop} {call : Call}
    {f : call.Res → Program β}
    (may : ∀ s', Rely session s s' → Inv cfg scope s' → May cfg scope session s' call)
    (continues : ∀ s' how value, Rely session s s' → Inv cfg scope s' →
      Lawful cfg scope (s'.view session) call →
      (s'.perform driver session how call).1 = .ok value →
      Safely cfg scope driver session post (f value) (s'.perform driver session how call).2) :
    Safely cfg scope driver session post (Prog.perform call >>= f) s := by
  refine Prog.Holds.perform may (fun _ _ _ _ _ _ _ => trivial) ?_
  intro s' how value relied isInv allowed answered
  have performs : State.exec driver session call how s' = s'.perform driver session how call := by
    have isExec : (State.exec driver session call how s').1 = .ok value := answered
    unfold State.exec at isExec ⊢
    split
    · rename_i faulty
      rw [if_pos faulty] at isExec
      cases isExec
    · rfl
  have isDone : (s'.perform driver session how call).1 = .ok value := by
    rw [← performs]
    exact answered
  have goesOn := continues s' how value relied isInv allowed.2 isDone
  rw [← performs] at goesOn
  exact goesOn

/-- The transaction can be committed, if nothing but others' calls happens before. -/
def Committable (cfg : Config) (scope : Scope) (session : ι) (s : State ι) : Prop :=
  ∀ s', Rely session s s' → Inv cfg scope s' → May cfg scope session s' .commit

theorem committable_of_free (free : s.accountLock ≠ some session) :
    Committable cfg scope session s := by
  intro s' relied _ held
  exact absurd (relied.lock.mp held) free

theorem idle_of_closed : Idle session [] (s.close session) where
  free := by
    simp only [State.close]
    split
    · simp
    · assumption
  writes := by simp [State.close]
  known := by simp

/-- A transaction begins with nothing, and must end ready to commit. -/
theorem withTx_safely {α : Type} {body : Program α} (safely : ∀ s, Idle session [] s →
      Safely cfg scope driver session (fun _ => Committable cfg scope session) body s) :
    Safely cfg scope driver session (fun _ _ => True) (withTx body) s := by
  refine Safely.call (fun _ _ _ => trivial) ?_
  intro s₀ how _ _ _ _ _
  refine Prog.Holds.catchingThen (safely _ idle_of_closed) ?_ ?_
  · intro value s' committable
    refine Safely.call committable ?_
    intro s'' how _ _ _ _ _
    exact Safely.returns trivial
  · intro error s' _
    have rolledBack : Safely cfg scope driver session (fun _ _ => True)
        (Prog.perform Call.rollback : Program Unit) s' := by
      rw [← Prog.bind_pure (Prog.perform Call.rollback)]
      refine Safely.call (fun _ _ _ => trivial) ?_
      intro s'' how _ _ _ _ _
      exact Safely.returns trivial
    refine Prog.Holds.catchingThen rolledBack ?_ ?_
    · exact fun _ _ _ => Safely.fails
    · exact fun _ _ _ => Safely.fails

/-! ## Without the lock -/

variable {known : List Uuid} {s' : State ι}

/-- A statement that takes no lock and makes no row version. -/
def Stmt.Reads (stmt : Stmt) : Prop :=
  stmt.locks = false ∧ ∀ how db, ∃ answer, stmt.query how db = (.ok answer, [])

theorem Stmt.Reads.statement {stmt : Stmt} (reads : stmt.Reads) (how : How) :
    (s.statement session how stmt).2 = s := by
  obtain ⟨answer, isAnswer⟩ := reads.2 how (s.view session)
  simp [State.statement, reads.1, isAnswer]

theorem Stmt.Reads.may {stmt : Stmt} (reads : stmt.Reads) (isInv : Inv cfg scope s) :
    May cfg scope session s (.sql stmt) := by
  refine ⟨?_, ?_⟩
  · intro how
    rw [reads.statement]
    exact isInv.shape session
  · intro _ how
    obtain ⟨answer, isAnswer⟩ := reads.2 how (s.view session)
    rw [isAnswer]
    exact fun isError => by cases isError

theorem Safely.read {β : Type} {post : β → State ι → Prop} {stmt : Stmt}
    {f : stmt.Res → Program β} (reads : stmt.Reads)
    (continues : ∀ s' how value, Rely session s s' → Inv cfg scope s' →
      (stmt.query how (s'.view session)).1 = .ok value →
      Safely cfg scope driver session post (f value) s') :
    Safely cfg scope driver session post (sql stmt >>= f) s := by
  refine Safely.call (fun s' _ isInv => reads.may isInv) ?_
  intro s' how value relied isInv _ answered
  have isSame : (s'.perform driver session how (.sql stmt)).2 = s' := reads.statement how
  rw [isSame]
  exact continues s' how value relied isInv answered

theorem Idle.read {β : Type} {post : β → State ι → Prop} {stmt : Stmt}
    {f : stmt.Res → Program β} (idle : Idle session known s) (reads : stmt.Reads)
    (continues : ∀ s' how value, Idle session known s' → Inv cfg scope s' →
      (stmt.query how s'.db).1 = .ok value → Safely cfg scope driver session post (f value) s') :
    Safely cfg scope driver session post (sql stmt >>= f) s := by
  refine Safely.read reads ?_
  intro s' how value relied isInv answered
  have still := idle.rely relied
  rw [still.view] at answered
  exact continues s' how value still isInv answered

/-- The clock says anything. -/
theorem Safely.now {β : Type} {post : β → State ι → Prop} {f : Int → Program β}
    (continues : ∀ s' now, Rely session s s' → Inv cfg scope s' →
      Safely cfg scope driver session post (f now) s') :
    Safely cfg scope driver session post ((Prog.perform Call.now : Program Int) >>= f) s := by
  refine Safely.call (fun _ _ _ => trivial) ?_
  intro s' how now relied isInv _ _
  exact continues s' now relied isInv

theorem authorizeWorkspace_safely {β : Type} {post : β → State ι → Prop}
    {f : WorkspaceRow → Program β} {workspaceID : Uuid} (idle : Idle session known s)
    (continues : ∀ s' row, row.id = workspaceID → Idle session (workspaceID :: known) s' →
      Safely cfg scope driver session post (f row) s') :
    Safely cfg scope driver session post (authorizeWorkspace workspaceID >>= f) s := by
  have authorized : Safely cfg scope driver session
      (fun row s' => row.id = workspaceID ∧ Idle session (workspaceID :: known) s')
      (authorizeWorkspace workspaceID) s := by
    have reads : (Stmt.getSyncWorkspaceByIDAndOwner workspaceID).Reads := ⟨rfl, fun _ _ => ⟨_, rfl⟩⟩
    refine idle.read reads ?_
    intro s' how found still _ answered
    cases found with
    | none => exact Safely.fails
    | some row =>
      have isRow := filter_eq_some_iff.mp (Except.ok.inj answered)
      refine Safely.returns ⟨Table.key_of_get isRow.1, still.free, still.writes, ?_⟩
      intro id member
      rcases mem_cons.mp member with rfl | old
      · rw [isRow.1]
        rfl
      · exact still.known id old
  exact authorized.andThen fun row s' reached => continues s' row reached.1 reached.2

theorem requireActiveDevice_safely {β : Type} {post : β → State ι → Prop}
    {f : DeviceRow → Program β} {workspaceID deviceID : Uuid} (idle : Idle session known s)
    (continues : ∀ s' row, Idle session known s' →
      Safely cfg scope driver session post (f row) s') :
    Safely cfg scope driver session post (requireActiveDevice workspaceID deviceID >>= f) s := by
  have required : Safely cfg scope driver session (fun _ => Idle session known)
      (requireActiveDevice workspaceID deviceID) s := by
    have reads : (Stmt.getActiveSyncDevice workspaceID deviceID).Reads := ⟨rfl, fun _ _ => ⟨_, rfl⟩⟩
    refine idle.read reads ?_
    intro s' how found still _ _
    cases found with
    | none => exact Safely.fails
    | some row => exact Safely.returns still
  exact required.andThen fun row s' reached => continues s' row reached

/-! ## With the lock -/

variable {P : Fact}

/-- A transaction that has the lock and no drift can be committed. -/
theorem Holding.committable (holding : Holding session P s) (steady : Steady P)
    (tables : ∀ db blobs, P db blobs → ∃ workspaceID, Midway cfg scope workspaceID .none db blobs) :
    Committable cfg scope session s := by
  intro s' relied _ _
  have still := holding.rely steady relied
  obtain ⟨workspaceID, midway⟩ := tables _ _ still.fact
  exact ⟨still.keeps, midway.anywhere⟩

/-- A statement that takes the lock and at most writes the account row. -/
def Stmt.LocksAccount (stmt : Stmt) : Prop :=
  stmt.locks = true ∧ ∀ how db, ∃ answer writes, stmt.query how db = (.ok answer, writes) ∧
    ∀ write ∈ writes, ∃ row, write = .account row

theorem view_accounts {writes : List Write} (only : ∀ write ∈ writes, ∃ row, write = .account row)
    (db : Db) : (db.view writes).workspaces = db.workspaces ∧
      (db.view writes).objects = db.objects := by
  induction writes generalizing db with
  | nil => exact ⟨rfl, rfl⟩
  | cons first rest ih =>
    obtain ⟨row, rfl⟩ := only first mem_cons_self
    exact ih (fun write member => only write (mem_cons_of_mem _ member)) (db.apply (.account row))

/-- The statement that takes the lock: it runs on the committed tables. -/
theorem Idle.lock {β : Type} {post : β → State ι → Prop} {stmt : Stmt}
    {f : stmt.Res → Program β} {Q : stmt.Res → Fact} (idle : Idle session known s)
    (locks : stmt.LocksAccount)
    (step : ∀ db blobs how value, (∀ id ∈ known, (db.workspace id).isSome) →
      (∀ workspaceID, Midway cfg scope workspaceID .none db blobs) →
      (stmt.query how db).1 = .ok value → Q value (db.view (stmt.query how db).2) blobs)
    (continues : ∀ s' value, Holding session (Q value) s' →
      Safely cfg scope driver session post (f value) s') :
    Safely cfg scope driver session post (sql stmt >>= f) s := by
  have revised : ∀ how db, ∀ write ∈ (stmt.query how db).2, ∃ row, write = Write.account row := by
    intro how db
    obtain ⟨answer, writes, isQuery, only⟩ := locks.2 how db
    rw [isQuery]
    exact only
  have written : ∀ s' : State ι, Idle session known s' → ∀ how,
      (s'.statement session how stmt).2.writes session = (stmt.query how s'.db).2 := by
    intro s' still how
    simp [State.statement, still.writes, still.view]
  refine Safely.call ?_ ?_
  · intro s' relied isInv
    have still := idle.rely relied
    refine ⟨?_, ?_⟩
    · intro how
      refine ⟨?_, ?_⟩
      · intro _ write member
        rw [written s' still how] at member
        obtain ⟨row, rfl⟩ := revised how s'.db write member
        trivial
      · intro free
        simp [State.statement, locks.1] at free
    · intro _ how isError
      obtain ⟨answer, writes, isQuery, only⟩ := locks.2 how (s'.view session)
      rw [isQuery] at isError
      cases isError
  · intro s' how value relied isInv _ answered
    have still := idle.rely relied
    have isView : (s'.statement session how stmt).2.view session =
        s'.db.view (stmt.query how s'.db).2 := by
      unfold State.view
      rw [written s' still how]
      rfl
    have isOk : (stmt.query how s'.db).1 = .ok value := by
      rw [← still.view]
      exact answered
    have same := view_accounts (revised how s'.db) s'.db
    have keeps : Keeps s'.db (s'.db.view (stmt.query how s'.db).2) := by
      refine ⟨?_, ?_⟩
      · intro id isThere
        unfold Db.workspace
        rw [same.1]
        exact isThere
      · intro row member _
        rw [same.2]
        exact member
    apply continues
    show Holding session (Q value) (s'.statement session how stmt).2
    refine ⟨?_, ?_, ?_, ?_⟩
    · simp [State.statement, locks.1]
    · intro write member
      rw [written s' still how] at member
      obtain ⟨row, rfl⟩ := revised how s'.db write member
      trivial
    · rw [isView]
      exact keeps
    · rw [isView]
      exact step s'.db s'.blobs how value still.known isInv.good.tables isOk

theorem locksAccount_get : Stmt.getSyncUsageAccountForUpdate.LocksAccount :=
  ⟨rfl, fun _ _ => ⟨_, _, rfl, by simp⟩⟩

theorem locksAccount_ensure : Stmt.ensureSyncUsageAccount.LocksAccount :=
  ⟨rfl, fun how db => ⟨_, _, query_ensure how db, by simp⟩⟩

/-- A statement of a transaction that has the lock. -/
theorem Holding.statement {β : Type} {post : β → State ι → Prop} {stmt : Stmt}
    {f : stmt.Res → Program β} {Q : stmt.Res → Fact} (holding : Holding session P s)
    (steady : Steady P)
    (may : ∀ db blobs how, P db blobs →
      (∀ write ∈ (stmt.query how db).2, Revises db write) ∧
      (scope ≠ .objects → (stmt.query how db).1 ≠ .error .checkViolation))
    (step : ∀ db blobs how value, P db blobs → Lawful cfg scope db (.sql stmt) →
      (stmt.query how db).1 = .ok value →
      Keeps db (db.view (stmt.query how db).2) ∧ Q value (db.view (stmt.query how db).2) blobs)
    (continues : ∀ s' value, Holding session (Q value) s' →
      Safely cfg scope driver session post (f value) s') :
    Safely cfg scope driver session post (sql stmt >>= f) s := by
  have written : ∀ (s' : State ι) how, (s'.statement session how stmt).2.writes session =
      s'.writes session ++ (stmt.query how (s'.view session)).2 := by
    intro s' how
    simp [State.statement]
  have stillLocked : ∀ (s' : State ι) how, s'.accountLock = some session →
      (s'.statement session how stmt).2.accountLock = some session := by
    intro s' how isHeld
    simp [State.statement, isHeld]
  have revised : ∀ (s' : State ι) how, Holding session P s' →
      ∀ write ∈ (s'.statement session how stmt).2.writes session, Revises s'.db write := by
    intro s' how still write member
    rw [written] at member
    rcases mem_append.mp member with old | new
    · exact still.revises write old
    · exact (revises_view still.revises).mp ((may _ _ how still.fact).1 write new)
  refine Safely.call ?_ ?_
  · intro s' relied isInv
    have still := holding.rely steady relied
    refine ⟨?_, fun counts how => (may _ _ how still.fact).2 counts⟩
    intro how
    exact ⟨fun _ => revised s' how still, fun free => absurd (stillLocked s' how still.lock) free⟩
  · intro s' how value relied isInv lawful answered
    have still := holding.rely steady relied
    obtain ⟨keeps, reached⟩ := step _ _ how value still.fact lawful answered
    have isView : (s'.statement session how stmt).2.view session =
        (s'.view session).view (stmt.query how (s'.view session)).2 := by
      unfold State.view
      rw [written, Db.view_append]
      rfl
    apply continues
    show Holding session (Q value) (s'.statement session how stmt).2
    refine ⟨stillLocked s' how still.lock, revised s' how still, ?_, ?_⟩
    · rw [isView]
      exact still.keeps.trans keeps
    · rw [isView]
      exact reached

/-- What a transaction may do that makes one row version or fails. -/
theorem may_one {stmt : Stmt} {how : How} {db : Db} {write : Write} {answer : stmt.Res}
    (isQuery : stmt.query how db = (.ok answer, [write])) (revises : Revises db write) :
    (∀ write ∈ (stmt.query how db).2, Revises db write) ∧
      (scope ≠ .objects → (stmt.query how db).1 ≠ .error .checkViolation) := by
  rw [isQuery]
  refine ⟨?_, fun _ isIt => by cases isIt⟩
  intro other member
  rw [mem_singleton.mp member]
  exact revises

theorem may_none {stmt : Stmt} {how : How} {db : Db} {answer : Except StorageError stmt.Res}
    (isQuery : stmt.query how db = (answer, []))
    (isFine : scope ≠ .objects → answer ≠ .error .checkViolation) :
    (∀ write ∈ (stmt.query how db).2, Revises db write) ∧
      (scope ≠ .objects → (stmt.query how db).1 ≠ .error .checkViolation) := by
  rw [isQuery]
  exact ⟨by simp, isFine⟩

theorem view_one {stmt : Stmt} {how : How} {db : Db} {write : Write}
    {answer : Except StorageError stmt.Res} (isQuery : stmt.query how db = (answer, [write])) :
    db.view (stmt.query how db).2 = db.apply write := by
  rw [isQuery]
  rfl

theorem view_none {stmt : Stmt} {how : How} {db : Db} {answer : Except StorageError stmt.Res}
    (isQuery : stmt.query how db = (answer, [])) : db.view (stmt.query how db).2 = db := by
  rw [isQuery]
  rfl

/-- A read of a transaction that has the lock. -/
theorem Holding.read {β : Type} {post : β → State ι → Prop} {stmt : Stmt}
    {f : stmt.Res → Program β} {Q : stmt.Res → Fact} (holding : Holding session P s)
    (steady : Steady P) (reads : ∀ how db, ∃ answer, stmt.query how db = (.ok answer, []))
    (step : ∀ db blobs how value, P db blobs → (stmt.query how db).1 = .ok value → Q value db blobs)
    (continues : ∀ s' value, Holding session (fun db blobs => P db blobs ∧ Q value db blobs) s' →
      Safely cfg scope driver session post (f value) s') :
    Safely cfg scope driver session post (sql stmt >>= f) s := by
  refine holding.statement steady ?_ ?_ continues
  · intro db blobs how _
    obtain ⟨answer, isQuery⟩ := reads how db
    exact may_none isQuery fun _ isError => by cases isError
  · intro db blobs how value fact _ answered
    obtain ⟨answer, isQuery⟩ := reads how db
    rw [view_none isQuery]
    exact ⟨Keeps.refl, fact, step db blobs how value fact answered⟩

theorem Holding.now {β : Type} {post : β → State ι → Prop} {f : Int → Program β}
    (holding : Holding session P s) (steady : Steady P)
    (continues : ∀ s' now, Holding session P s' → Safely cfg scope driver session post (f now) s') :
    Safely cfg scope driver session post ((Prog.perform Call.now : Program Int) >>= f) s :=
  Safely.now fun s' now relied _ => continues s' now (holding.rely steady relied)

end Rules

end Kuku.Storage
