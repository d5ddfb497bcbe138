/-
# Server.PublishInterleaving -- publish transactions one statement at a time

Any number of `PublishCommit` calls run at once.  A call is a `Session`: its
normalised request, the writes its transaction has made so far, and the statement
it is about to execute (`Stage`).  `State.exec` executes that one statement, under
PostgreSQL's READ COMMITTED rules:

* a statement reads the rows committed before it;
* `SELECT ... FOR UPDATE` takes the row's lock, or waits (the step is not enabled)
  while another transaction holds it;
* writes become visible to others only when the transaction commits, and every
  lock is held until it ends;
* the identity behind `server_seq` advances at the insert and never goes back.

The transaction reads no row it has written, so its writes can wait in `Session`
until the commit.  `rollback` ends a transaction at any point (a lost connection, a
deadlock, a cancelled context).  The other handlers take part as single steps:
workspaces and devices are created, removed and revoked, and the object table
changes in any way at any time, locked rows excepted.
-/
import Kuku.Server.PublishCommit
import Kuku.Theory.Runs

namespace Kuku.Server

open Kuku.Theory

/-- The statement a transaction executes next, with what the handler has read. -/
inductive Stage where
  | authorize
  | lookup (workspace : KukuSyncWorkspace)
  | lockWorkspace
  | relookup (workspace : KukuSyncWorkspace)
  | lockDevice
  | parents (remaining : List String)
  | body
  | references (bodyObject : KukuSyncObject)
  | createCommit (bodyObject : KukuSyncObject) (objects : List KukuSyncObject)
  | commitObjects (commit : KukuSyncCommit) (remaining : List KukuSyncCommitObject)
  | deviceCursor (commit : KukuSyncCommit)
  | workspaceHead (commit : KukuSyncCommit)
  | commit (result : PublishCommitResult)

structure Session where
  userID : Uuid
  params : PublishCommitParams
  canonicalPayload : Bytes
  stage : Stage
  writes : List Write

structure State where
  db : Db
  sessions : Nat → Option Session
  workspaceLock : Uuid → Option Nat
  deviceLock : Uuid → Uuid → Option Nat
  results : Nat → Option (Except SyncError PublishCommitResult)

/-- One step: a call arrives, a transaction executes a statement or is rolled
back, or another handler commits. -/
inductive Label where
  | begin (sid : Nat) (userID : Uuid) (params : PublishCommitParams)
  | exec (sid : Nat)
  | rollback (sid : Nat)
  | createWorkspace (id ownerUserID : Uuid)
  | registerDevice (workspaceID id userID : Uuid) (signingPublicKey : Bytes)
  | softDeleteWorkspace (id : Uuid)
  | revokeDevice (workspaceID id : Uuid)
  | changeObjects (objects : Uuid → String → Option KukuSyncObject)

namespace State

def initial : State where
  db := Db.empty
  sessions _ := none
  workspaceLock _ := none
  deviceLock _ _ := none
  results _ := none

/-- The transaction ends: its locks are released and the call answers. -/
def finish (s : State) (sid : Nat) (result : Except SyncError PublishCommitResult) : State where
  db := s.db
  sessions := Function.update s.sessions sid none
  workspaceLock w := if s.workspaceLock w = some sid then none else s.workspaceLock w
  deviceLock w d := if s.deviceLock w d = some sid then none else s.deviceLock w d
  results := Function.update s.results sid (some result)

/-- The transaction goes on to its next statement. -/
def goto (s : State) (sid : Nat) (session : Session) (stage : Stage) : State :=
  { s with sessions := Function.update s.sessions sid (some { session with stage := stage }) }

/-- The statement has written rows; the transaction goes on. -/
def wrote (s : State) (sid : Nat) (session : Session) (write : Write) (stage : Stage) : State :=
  s.goto sid { session with writes := session.writes ++ [write] } stage

/-- The lock is free, or already ours. -/
def granted (lock : Option Nat) (sid : Nat) : Bool := lock = none ∨ lock = some sid

/-- `FOR UPDATE` on the workspace row. -/
def lockWorkspace (s : State) (sid : Nat) (workspaceID : Uuid) : State :=
  { s with workspaceLock := Function.update s.workspaceLock workspaceID (some sid) }

/-- `FOR UPDATE` on the device row. -/
def lockDevice (s : State) (sid : Nat) (workspaceID id : Uuid) : State :=
  { s with
    deviceLock := Function.update s.deviceLock workspaceID
      (Function.update (s.deviceLock workspaceID) id (some sid)) }

def drawServerSeq (s : State) : State :=
  { s with db := { s.db with nextServerSeq := s.db.nextServerSeq + 1 } }

/-- The answer to a retry of a stored commit. -/
def retryResult (existing : KukuSyncCommit) (workspace : KukuSyncWorkspace) :
    PublishCommitResult :=
  { commit := existing, headVersion := workspace.headVersion, idempotent := true }

/-- Execute the next statement of a transaction, with the checks up to the
statement after it.  `none`: the transaction waits for a lock. -/
def exec (svc : Service) (s : State) (sid : Nat) (session : Session) : Option State :=
  let params := session.params
  match session.stage with
  | .authorize =>
    match authorizeWorkspace s.db session.userID params.workspaceID with
    | .error e => some (s.finish sid (.error e))
    | .ok workspace => some (s.goto sid session (.lookup workspace))
  | .lookup workspace =>
    match existingCommit svc s.db params session.canonicalPayload with
    | .error e => some (s.finish sid (.error e))
    | .ok (some existing) => some (s.finish sid (.ok (retryResult existing workspace)))
    | .ok none => some (s.goto sid session .lockWorkspace)
  | .lockWorkspace =>
    match s.db.getSyncWorkspace params.workspaceID session.userID with
    | none => some (s.finish sid (.error .permissionDenied))
    | some workspace =>
      if granted (s.workspaceLock params.workspaceID) sid then
        some ((s.lockWorkspace sid params.workspaceID).goto sid session (.relookup workspace))
      else none
  | .relookup workspace =>
    match existingCommit svc s.db params session.canonicalPayload with
    | .error e => some (s.finish sid (.error e))
    | .ok (some existing) => some (s.finish sid (.ok (retryResult existing workspace)))
    | .ok none =>
      match checkHead workspace params with
      | .error e => some (s.finish sid (.error e))
      | .ok () => some (s.goto sid session .lockDevice)
  | .lockDevice =>
    match s.db.getActiveSyncDevice params.workspaceID params.authorDeviceID session.userID with
    | none => some (s.finish sid (.error .permissionDenied))
    | some device =>
      if granted (s.deviceLock params.workspaceID params.authorDeviceID) sid then
        match checkDevice svc device params session.canonicalPayload with
        | .error e => some (s.finish sid (.error e))
        | .ok () =>
          match checkParentKind params with
          | .error e => some (s.finish sid (.error e))
          | .ok () =>
            some ((s.lockDevice sid params.workspaceID params.authorDeviceID).goto
              sid session (.parents params.parentCommitIDs))
      else none
  | .parents [] => some (s.goto sid session .body)
  | .parents (parentID :: remaining) =>
    match checkParent s.db params parentID with
    | .error e => some (s.finish sid (.error e))
    | .ok () => some (s.goto sid session (.parents remaining))
  | .body =>
    match validateBody s.db params with
    | .error e => some (s.finish sid (.error e))
    | .ok bodyObject => some (s.goto sid session (.references bodyObject))
  | .references bodyObject =>
    match validateReferences s.db params with
    | .error e => some (s.finish sid (.error e))
    | .ok objects => some (s.goto sid session (.createCommit bodyObject objects))
  | .createCommit bodyObject objects =>
    match commitKindToSQL params.commitKind with
    | .error e => some (s.finish sid (.error e))
    | .ok kind =>
      let row := newSyncCommit params kind s.db.nextServerSeq
      -- a failed insert uses its server_seq up
      if violatesUnique s.db row then some (s.drawServerSeq.finish sid (.error .internal))
      else
        some (s.drawServerSeq.wrote sid session (.createSyncCommit row)
          (.commitObjects row (commitObjectRows params bodyObject objects)))
  | .commitObjects commit [] =>
    some (s.wrote sid session
      (.updateSyncDeviceSequence params.workspaceID params.authorDeviceID session.userID
        params.deviceSeq)
      (.deviceCursor commit))
  | .commitObjects commit (row :: remaining) =>
    some (s.wrote sid session (.createSyncCommitObject row) (.commitObjects commit remaining))
  | .deviceCursor commit =>
    some (s.wrote sid session (cursorWrite params) (.workspaceHead commit))
  | .workspaceHead commit =>
    match s.db.getSyncWorkspace params.workspaceID session.userID with
    | none => some (s.finish sid (.error .internal))
    | some workspace =>
      let updated := workspace.withHead (text params.commitID)
      some (s.wrote sid session
        (.updateSyncWorkspaceHead params.workspaceID session.userID (text params.commitID))
        (.commit { commit, headVersion := updated.headVersion,
                   idempotent := false }))
  | .commit result =>
    let ended := s.finish sid (.ok result)
    some { ended with db := s.db.applyWrites session.writes }

def begin (svc : Service) (s : State) (sid : Nat) (userID : Uuid)
    (params : PublishCommitParams) : State :=
  let opened : Except SyncError Session := do
    let normalized ← normalizePublishCommitParams params
    let canonicalPayload ← canonicalCommitPayload svc normalized
    return { userID, params := normalized, canonicalPayload, stage := .authorize, writes := [] }
  match opened with
  | .error e => { s with results := Function.update s.results sid (some (.error e)) }
  | .ok session => { s with sessions := Function.update s.sessions sid (some session) }

/-- `CreateSyncWorkspace`: a row under a fresh id. -/
def createWorkspace (s : State) (id ownerUserID : Uuid) : State :=
  let row : KukuSyncWorkspace :=
    { id, ownerUserID, currentHeadCommitID := none, headVersion := 0, deleted := false }
  { s with db := { s.db with workspaces := Function.update s.db.workspaces id (some row) } }

/-- A device row is inserted or replaced. -/
def putDevice (s : State) (device : KukuSyncDevice) : State :=
  { s with
    db := { s.db with
      devices := Function.update s.db.devices device.workspaceID
        (Function.update (s.db.devices device.workspaceID) device.id (some device)) } }

/-- One step; `none` when it is not enabled. -/
def next (svc : Service) (s : State) : Label → Option State
  | .begin sid userID params =>
    if (s.sessions sid).isSome then none else some (s.begin svc sid userID params)
  | .exec sid => (s.sessions sid).bind (s.exec svc sid)
  | .rollback sid =>
    if (s.sessions sid).isSome then some (s.finish sid (.error .internal)) else none
  | .createWorkspace id ownerUserID =>
    if (s.db.workspaces id).isSome then none else some (s.createWorkspace id ownerUserID)
  | .registerDevice workspaceID id userID signingPublicKey =>
    -- `RegisterDevice` authorises the workspace and inserts under a fresh id
    if (s.db.devices workspaceID id).isSome ∨
        (s.db.getSyncWorkspace workspaceID userID).isNone then none
    else some (s.putDevice { workspaceID, id, userID, signingPublicKey,
                             lastDeviceSeq := 0, revoked := false })
  | .softDeleteWorkspace id =>
    match s.db.workspaces id, s.workspaceLock id with
    | some row, none =>
      let db := { s.db with
        workspaces := Function.update s.db.workspaces id (some { row with deleted := true }) }
      some { s with db := db }
    | _, _ => none
  | .revokeDevice workspaceID id =>
    match s.db.devices workspaceID id, s.deviceLock workspaceID id with
    | some device, none =>
      some (s.putDevice { device with workspaceID, id, revoked := true })
    | _, _ => none
  | .changeObjects objects => some { s with db := { s.db with objects := objects } }

end State

/-- Every interleaving of publishes with the other handlers. -/
def publishing (svc : Service) : System State Label :=
  System.ofStep (· = State.initial) (State.next svc)

end Kuku.Server
