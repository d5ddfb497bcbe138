/-
# Storage.Transactions -- the storage transactions, statement by statement

`CreateWorkspace`, `DeleteWorkspace`, `ReserveObjectIDs`, `UploadObjectBytesDev`
(`service.go`), the upload, completion and download batches (`presign.go`), `RunWorkspaceGC`
(`gc.go`), `RecalculateSyncUsage` (`quota.go`), and of `PublishCommit` (`commit.go`) the
part that looks at objects, as programs of SQL statements and object-store calls.

Statements run under READ COMMITTED: each sees what is committed when it runs and the
row versions of its own transaction.  The row lock that matters is the account's,
which every transaction takes that writes a usage row; the locks of usage and object
rows are only taken by transactions that already have it, so leaving them out allows
more runs, not fewer.  A statement or a store call can also fail for a reason of its
own (`How.fault`), and a server can crash at any point.

The servers may differ in the driver of their object store: one database can be used
by a server with local storage and by one with S3.  The part of the GC that fills its
report from the commit graph is left out; no decision depends on it.  The other checks of
`PublishCommit` are in `Server.PublishInterleaving`; here a commit may be published
whenever its objects allow it.
-/
import Kuku.Server.Uuid
import Kuku.Storage.Tables
import Kuku.Theory.Program

namespace Kuku.Storage

open Kuku.Theory Text
open Kuku.Server (Bytes Uuid KukuSyncObjectKind KukuSyncObjectState KukuSyncObject
  KukuSyncCommit KukuSyncCommitKind PublishCommitParams uuidString isHex)

/-- `syncv1.SyncQuotaLimit`. -/
inductive QuotaLimit where
  | workspaceCount
  | userTotalStorageBytes
  | workspaceStorageBytes
  | singleBlobBytes
  | pendingUploadBytes

inductive StorageError where
  | permissionDenied
  | invalidArgument (message : String)
  | objectNotAvailable
  | objectMetadataMismatch
  | objectStoreNotFound
  | devBytesDisabled
  | notImplemented
  | quota (limit : QuotaLimit) (max current requested : Int)
  /-- `pgx.ErrNoRows`. -/
  | noRows
  /-- A `CHECK` constraint rejects the row. -/
  | checkViolation
  /-- A primary key is taken. -/
  | uniqueViolation
  /-- `bigint out of range`. -/
  | outOfRange
  /-- An error of the checks of `Server.PublishCommit`. -/
  | publish (error : Kuku.Server.SyncError)
  /-- Any other failure of the database or the store. -/
  | internal

structure BlobMetadata where
  sizeBytes : Int
  ciphertextSha256 : String

/-! ## Statements -/

inductive Stmt where
  | getSyncWorkspaceByIDAndOwner (id : Uuid)
  | getActiveSyncDevice (workspaceID id : Uuid)
  | ensureSyncUsageAccount
  | getSyncUsageAccountForUpdate
  | getSyncUsageWorkspaceForUpdate (workspaceID : Uuid)
  | createSyncWorkspace
  | createSyncUsageWorkspace (workspaceID : Uuid)
  | softDeleteSyncWorkspace (id : Uuid)
  | recalculateSyncUsageWorkspace (workspaceID : Uuid)
  | recalculateSyncUsageAccount
  | createReservedSyncObject (row : ObjectRow)
  | getSyncObjectForUpdate (workspaceID : Uuid) (objectID : String)
  | markSyncObjectPending (workspaceID : Uuid) (objectID ciphertextSha256 : String)
      (sizeBytes : Int) (expiresAt : Int)
  | markSyncObjectAvailable (workspaceID : Uuid) (objectID ciphertextSha256 : String)
      (sizeBytes : Int)
  | markSyncObjectFailed (workspaceID : Uuid) (objectID : String) (reason : ObjectErrorReason)
  | markSyncObjectDeleted (workspaceID : Uuid) (objectID : String)
  | listExpiredOrphanSyncObjectsForUpdate (workspaceID : Uuid) (time limit : Int)
  /-- The statements that add to the counters of a workspace. -/
  | addUsage (workspaceID : Uuid) (storageBytes objectCount pendingUploadBytes : Int)
  /-- The statements that add to the counters of the account. -/
  | addAccountUsage (workspaceCount totalStorageBytes pendingUploadBytes : Int)
  | touchSyncDeviceLastSeen (workspaceID id : Uuid)
  | getSyncObject (workspaceID : Uuid) (objectID : String)
  | listSyncObjectsByIDs (workspaceID : Uuid) (ids : List String)
  | createSyncCommit (params : PublishCommitParams) (kind : KukuSyncCommitKind)

namespace Stmt

abbrev Res : Stmt → Type
  | .getSyncWorkspaceByIDAndOwner _ => Option WorkspaceRow
  | .getActiveSyncDevice _ _ => Option DeviceRow
  | .ensureSyncUsageAccount => AccountRow
  | .getSyncUsageAccountForUpdate => Option AccountRow
  | .getSyncUsageWorkspaceForUpdate _ => Option UsageRow
  | .createSyncWorkspace => WorkspaceRow
  | .createSyncUsageWorkspace _ => UsageRow
  | .softDeleteSyncWorkspace _ => Unit
  | .recalculateSyncUsageWorkspace _ => Option UsageRow
  | .recalculateSyncUsageAccount => Option AccountRow
  | .createReservedSyncObject _ => ObjectRow
  | .getSyncObjectForUpdate _ _ => Option ObjectRow
  | .markSyncObjectPending _ _ _ _ _ => Option ObjectRow
  | .markSyncObjectAvailable _ _ _ _ => Option ObjectRow
  | .markSyncObjectFailed _ _ _ => Option ObjectRow
  | .markSyncObjectDeleted _ _ => Option ObjectRow
  | .listExpiredOrphanSyncObjectsForUpdate _ _ _ => List ObjectRow
  | .addUsage _ _ _ _ => Unit
  | .addAccountUsage _ _ _ => Unit
  | .touchSyncDeviceLastSeen _ _ => Unit
  | .getSyncObject _ _ => Option ObjectRow
  | .listSyncObjectsByIDs _ _ => List ObjectRow
  | .createSyncCommit _ _ => KukuSyncCommit

/-- The statement locks the account row. -/
def locks : Stmt → Bool
  | .ensureSyncUsageAccount => true
  | .getSyncUsageAccountForUpdate => true
  | _ => false

/-! The counter statements of `sync.sql`. -/

def incrementSyncUsageWorkspaceCount (n : Int) : Stmt := .addAccountUsage n 0 0

def addSyncUsagePendingBytes (workspaceID : Uuid) (n : Int) : Stmt := .addUsage workspaceID 0 0 n

def addSyncUsageAccountPendingBytes (n : Int) : Stmt := .addAccountUsage 0 0 n

def releaseSyncUsagePendingBytes (workspaceID : Uuid) (n : Int) : Stmt :=
  .addUsage workspaceID 0 0 (-n)

def releaseSyncUsageAccountPendingBytes (n : Int) : Stmt := .addAccountUsage 0 0 (-n)

def completeSyncUsageObjectBytes (workspaceID : Uuid) (n : Int) : Stmt :=
  .addUsage workspaceID n 1 (-n)

def completeSyncUsageAccountObjectBytes (n : Int) : Stmt := .addAccountUsage 0 n (-n)

def addSyncUsageAvailableObjectBytes (workspaceID : Uuid) (n : Int) : Stmt :=
  .addUsage workspaceID n 1 0

def addSyncUsageAccountAvailableObjectBytes (n : Int) : Stmt := .addAccountUsage 0 n 0

end Stmt

/-- How a call goes: what the clock shows, the random id and the sequence number the
database makes, the rows `SKIP LOCKED` passes over, the URL a store signs, whether it
fails, and whether a store call that fails has had its effect. -/
structure How where
  fault : Bool
  takesEffect : Bool
  clock : Int
  fresh : Uuid
  serverSeq : Nat
  skipped : List String
  url : String

def UsageRow.add (row : UsageRow) (storageBytes objectCount pendingUploadBytes : Int) : UsageRow :=
  { row with
    storageBytes := row.storageBytes + storageBytes
    objectCount := row.objectCount + objectCount
    pendingUploadBytes := row.pendingUploadBytes + pendingUploadBytes }

/-- The `CHECK` constraints of `sync_usage_workspaces`. -/
def UsageRow.valid (row : UsageRow) : Bool :=
  0 ≤ row.storageBytes && 0 ≤ row.objectCount && 0 ≤ row.pendingUploadBytes

def fitsInt64 (n : Int) : Bool := n < 2 ^ 63

/-- The counters are `BIGINT` columns. -/
def UsageRow.fits (row : UsageRow) : Bool :=
  fitsInt64 row.storageBytes && fitsInt64 row.objectCount && fitsInt64 row.pendingUploadBytes

def AccountRow.add (row : AccountRow) (workspaceCount totalStorageBytes pendingUploadBytes : Int) :
    AccountRow :=
  { row with
    workspaceCount := row.workspaceCount + workspaceCount
    totalStorageBytes := row.totalStorageBytes + totalStorageBytes
    pendingUploadBytes := row.pendingUploadBytes + pendingUploadBytes }

/-- The `CHECK` constraints of `sync_usage_accounts`. -/
def AccountRow.valid (row : AccountRow) : Bool :=
  0 ≤ row.workspaceCount && 0 ≤ row.totalStorageBytes && 0 ≤ row.pendingUploadBytes

/-- `workspace_count` is an `INTEGER`, the others are `BIGINT`. -/
def AccountRow.fits (row : AccountRow) : Bool :=
  decide (row.workspaceCount < 2 ^ 31) && fitsInt64 row.totalStorageBytes &&
    fitsInt64 row.pendingUploadBytes

/-- `ListExpiredOrphanSyncObjectsForUpdate`: by expiry, then by id. -/
def Db.expiredOrphans (db : Db) (workspaceID : Uuid) (now limit : Int) (skipped : List String) :
    List ObjectRow :=
  let expired := db.objects.filter fun row =>
    row.workspaceID = workspaceID ∧
      (row.uploadState = .reserved ∨ row.uploadState = .pending ∨ row.uploadState = .failed) ∧
      row.deleted = false ∧ row.expiresAt.any (· ≤ now) ∧ row.objectID ∉ skipped
  let before (a b : ObjectRow) : Bool :=
    match a.expiresAt, b.expiresAt with
    | some x, some y => x < y || (x == y && a.objectID ≤ b.objectID)
    | _, _ => true
  (expired.insertionSort (before · ·)).take limit.toNat

/-- The row a mark statement writes, if its `WHERE` finds one. -/
def Db.marked (db : Db) (workspaceID : Uuid) (objectID : String)
    (from_ : KukuSyncObjectState → Bool) (change : ObjectRow → ObjectRow) : Option ObjectRow :=
  ((db.object workspaceID objectID).filter fun row => from_ row.uploadState && !row.deleted).map
    change

/-- A new object row violates the primary key or `UNIQUE(storage_key)`. -/
def Db.taken (db : Db) (row : ObjectRow) : Bool :=
  db.objects.any fun old => old.key = row.key ∨ old.storageKey = row.storageKey

/-- A statement on the tables a transaction sees: its answer and the row versions it
makes. -/
@[grind =] def Stmt.query (how : How) (db : Db) : (op : Stmt) → Except StorageError op.Res × List Write
  | .getSyncWorkspaceByIDAndOwner id =>
    (.ok ((db.workspace id).filter fun row => !row.deleted), [])
  | .getActiveSyncDevice workspaceID id =>
    (.ok (db.devices.find? fun row => row.workspaceID = workspaceID ∧ row.id = id ∧
      row.revoked = false), [])
  | .ensureSyncUsageAccount =>
    match db.account with
    | some row => (.ok row, [.account row])
    | none => (.ok ⟨0, 0, 0⟩, [.account ⟨0, 0, 0⟩])
  | .getSyncUsageAccountForUpdate => (.ok db.account, [])
  | .getSyncUsageWorkspaceForUpdate workspaceID => (.ok (db.usage workspaceID), [])
  | .createSyncWorkspace =>
    match db.workspace how.fresh with
    | some _ => (.error .uniqueViolation, [])
    | none => (.ok ⟨how.fresh, false⟩, [.newWorkspace ⟨how.fresh, false⟩])
  | .createSyncUsageWorkspace workspaceID =>
    match db.usage workspaceID with
    | some _ => (.error .uniqueViolation, [])
    | none => (.ok ⟨workspaceID, 0, 0, 0⟩, [.usage ⟨workspaceID, 0, 0, 0⟩])
  | .softDeleteSyncWorkspace id =>
    match (db.workspace id).filter fun row => !row.deleted with
    | some row => (.ok (), [.workspace { row with deleted := true }])
    | none => (.ok (), [])
  | .recalculateSyncUsageWorkspace workspaceID =>
    match db.usage workspaceID with
    | some _ =>
      if (db.counted workspaceID).fits then
        (.ok (some (db.counted workspaceID)), [.usage (db.counted workspaceID)])
      else (.error .outOfRange, [])
    | none => (.ok none, [])
  | .recalculateSyncUsageAccount =>
    match db.account with
    | some _ =>
      if db.accounted.fits then (.ok (some db.accounted), [.account db.accounted])
      else (.error .outOfRange, [])
    | none => (.ok none, [])
  | .createReservedSyncObject row =>
    if db.taken row then (.error .uniqueViolation, []) else (.ok row, [.newObject row])
  | .getSyncObjectForUpdate workspaceID objectID =>
    (.ok ((db.object workspaceID objectID).filter fun row => !row.deleted), [])
  | .markSyncObjectPending workspaceID objectID sha size expiresAt =>
    let marked := db.marked workspaceID objectID (fun state => state = .reserved ∨ state = .pending)
      fun row => { row with
        uploadState := .pending
        ciphertextSha256 := sha
        sizeBytes := size
        expiresAt := some expiresAt
        errorReason := none }
    (.ok marked, marked.toList.map .object)
  | .markSyncObjectAvailable workspaceID objectID sha size =>
    let marked := db.marked workspaceID objectID
      (fun state => state = .reserved ∨ state = .pending ∨ state = .available)
      fun row => { row with
        uploadState := .available
        ciphertextSha256 := sha
        sizeBytes := size
        expiresAt := none
        errorReason := none }
    (.ok marked, marked.toList.map .object)
  | .markSyncObjectFailed workspaceID objectID reason =>
    let marked := db.marked workspaceID objectID (fun _ => true)
      fun row => { row with uploadState := .failed, errorReason := some reason }
    (.ok marked, marked.toList.map .object)
  | .markSyncObjectDeleted workspaceID objectID =>
    let marked := db.marked workspaceID objectID (fun _ => true)
      fun row => { row with uploadState := .deleted, expiresAt := none, deleted := true }
    (.ok marked, marked.toList.map .object)
  | .listExpiredOrphanSyncObjectsForUpdate workspaceID time limit =>
    (.ok (db.expiredOrphans workspaceID time limit how.skipped), [])
  | .addUsage workspaceID storage count pending =>
    match db.usage workspaceID with
    | none => (.ok (), [])
    | some row =>
      if (row.add storage count pending).fits = false then (.error .outOfRange, [])
      else if (row.add storage count pending).valid = false then (.error .checkViolation, [])
      else (.ok (), [.usage (row.add storage count pending)])
  | .addAccountUsage count total pending =>
    match db.account with
    | none => (.ok (), [])
    | some row =>
      if (row.add count total pending).fits = false then (.error .outOfRange, [])
      else if (row.add count total pending).valid = false then (.error .checkViolation, [])
      else (.ok (), [.account (row.add count total pending)])
  | .touchSyncDeviceLastSeen _ _ => (.ok (), [])
  | .getSyncObject workspaceID objectID =>
    (.ok ((db.object workspaceID objectID).filter fun row => !row.deleted), [])
  | .listSyncObjectsByIDs workspaceID ids =>
    (.ok ((db.objects.filter fun row => row.workspaceID = workspaceID ∧ row.objectID ∈ ids ∧
      row.deleted = false).insertionSort fun a b => a.objectID ≤ b.objectID), [])
  | .createSyncCommit params kind =>
    (.ok (Kuku.Server.newSyncCommit params kind how.serverSeq),
      [.syncCommit (Kuku.Server.newSyncCommit params kind how.serverSeq)])

/-! ## Sessions -/

/-- What a transaction calls: its beginning, a statement, the clock, the object store, and its
end. -/
inductive Call where
  | begin
  | sql (stmt : Stmt)
  | now
  | head (storageKey : String)
  | deleteBlob (storageKey : String)
  | putBlob (storageKey : String) (metadata : BlobMetadata)
  | presignPut (storageKey ciphertextSha256 : String) (sizeBytes : Int)
  | presignGet (storageKey : String)
  | commit
  | rollback

abbrev Call.Res : Call → Type
  | .begin => Unit
  | .sql stmt => stmt.Res
  | .now => Int
  | .head _ => Option BlobMetadata
  | .deleteBlob _ => Unit
  | .putBlob _ _ => Unit
  | .presignPut _ _ _ => String
  | .presignGet _ => String
  | .commit => Unit
  | .rollback => Unit

/-- What the servers share of one user.  A session is one transaction of a server: the row
versions it has made, and whether it has the lock of the account row. -/
structure State (ι : Type) where
  db : Db
  blobs : Provider → String → Option BlobMetadata
  writes : ι → List Write
  accountLock : Option ι

namespace State

variable {ι : Type} [DecidableEq ι]

/-- The tables as a session's next statement sees them. -/
def view (s : State ι) (session : ι) : Db := s.db.view (s.writes session)

/-- A session between two transactions: no row versions, no lock. -/
def close (s : State ι) (session : ι) : State ι :=
  { s with
    writes := Function.update s.writes session []
    accountLock := if s.accountLock = some session then none else s.accountLock }

/-- A new object whose key another transaction has taken in the meantime: the insert would
have waited for that transaction, and failed. -/
def conflicts (db : Db) : Write → Bool
  | .newObject row => db.taken row
  | _ => false

def commit (s : State ι) (session : ι) : Except StorageError Unit × State ι :=
  if (s.writes session).any (conflicts s.db) then (.error .uniqueViolation, s.close session)
  else (.ok (), { s.close session with db := s.view session })

def setBlob (s : State ι) (provider : Provider) (storageKey : String)
    (blob : Option BlobMetadata) : State ι :=
  { s with
    blobs := Function.update s.blobs provider (Function.update (s.blobs provider) storageKey blob) }

/-- A statement: it takes its lock, and its row versions join the session's. -/
def statement (s : State ι) (session : ι) (how : How) (stmt : Stmt) :
    Except StorageError stmt.Res × State ι :=
  let result := stmt.query how (s.view session)
  (result.1, { s with
    writes := Function.update s.writes session (s.writes session ++ result.2)
    accountLock := if stmt.locks then some session else s.accountLock })

/-- A call that goes through.  The object store is the one of the server's driver: local
storage takes bytes directly, S3 is written by the clients. -/
def perform (driver : ι → Provider) (session : ι) (how : How) (s : State ι) :
    (call : Call) → Except StorageError call.Res × State ι
  | .begin => (.ok (), s.close session)
  | .sql stmt => s.statement session how stmt
  | .now => (.ok how.clock, s)
  | .head storageKey => (.ok (s.blobs (driver session) storageKey), s)
  | .deleteBlob storageKey => (.ok (), s.setBlob (driver session) storageKey none)
  | .putBlob storageKey metadata =>
    match driver session with
    | .localStore => (.ok (), s.setBlob .localStore storageKey (some metadata))
    | .s3Compatible => (.error .devBytesDisabled, s)
  | .presignPut _ _ _ => (.ok how.url, s)
  | .presignGet _ => (.ok how.url, s)
  | .commit => s.commit session
  | .rollback => (.ok (), s.close session)

/-- A call that fails.  A commit and a store call may have had their effect. -/
def fault (driver : ι → Provider) (session : ι) (how : How) (s : State ι) : Call → State ι
  | .commit => if how.takesEffect then (s.commit session).2 else s.close session
  | .rollback => s.close session
  | .deleteBlob storageKey =>
    if how.takesEffect then s.setBlob (driver session) storageKey none else s
  | _ => s

def exec (driver : ι → Provider) (session : ι) (call : Call) (how : How) (s : State ι) :
    Except StorageError call.Res × State ι :=
  if how.fault then (.error .internal, s.fault driver session how call)
  else s.perform driver session how call

/-- A statement waits while another session has the row lock it needs. -/
def Waits (s : State ι) (session : ι) : Call → Prop
  | .sql stmt => stmt.locks = true ∧ s.accountLock ≠ none ∧ s.accountLock ≠ some session
  | _ => False

end State

/-! ## The service -/

abbrev Program := Prog Call.Res StorageError

/-- `config.Config` as far as storage goes, and `sha256` in hexadecimal. -/
structure Config where
  maxWorkspacesPerUser : Int
  maxTotalStorageBytesPerUser : Int
  maxStorageBytesPerWorkspace : Int
  maxSingleBlobBytes : Int
  maxPendingUploadBytes : Int
  maxPendingUploadAge : Int
  directBytesDevEnabled : Bool
  storageNamespace : String
  sha256Hex : Bytes → String

/-- An `int64` sum. -/
def int64 (n : Int) : Int := n.bmod (2 ^ 64)

/-- `maxObjectTransferBatch` and `maxObjectReservations`. -/
def maxBatch : Nat := 100

def fail {α : Type} (error : StorageError) : Program α := .throw error

def sql (stmt : Stmt) : Program stmt.Res := Prog.perform (Call.sql stmt)

/-- A `:one` query; no row is an error. -/
def orNoRows {α : Type} : Option α → Program α
  | some row => pure row
  | none => fail .noRows

/-- `withTx`: begin, and commit what the body has done or roll it back. -/
def withTx {α : Type} (body : Program α) : Program α := do
  let _ : Unit ← Prog.perform Call.begin
  match ← body.catching with
  | .ok value =>
    let _ : Unit ← Prog.perform Call.commit
    pure value
  | .error error =>
    let _ : Except StorageError Unit ← (Prog.perform Call.rollback : Program Unit).catching
    fail error

def authorizeWorkspace (workspaceID : Uuid) : Program WorkspaceRow := do
  let workspace : Option WorkspaceRow ← sql (.getSyncWorkspaceByIDAndOwner workspaceID)
  match workspace with
  | none => fail .permissionDenied
  | some row => pure row

def requireActiveDevice (workspaceID deviceID : Uuid) : Program DeviceRow := do
  let device : Option DeviceRow ← sql (.getActiveSyncDevice workspaceID deviceID)
  match device with
  | none => fail .permissionDenied
  | some row => pure row

def requireObjectReservedByDevice (object : ObjectRow) (deviceID : Uuid) : Program Unit :=
  if object.createdByDeviceID ≠ some deviceID then fail .permissionDenied else pure ()

/-- The digest is lowered by ASCII rules, as in `Server.PublishCommit`. -/
def validateCiphertextDescriptor (ciphertextSHA256 : String) (sizeBytes : Int) :
    Except StorageError String :=
  let ciphertextSHA256 := asciiLower (trim ciphertextSHA256)
  if (utf8 ciphertextSHA256).length ≠ 64 then
    .error (.invalidArgument "ciphertext sha256 must be hex sha256")
  else if !isHex ciphertextSHA256 then
    .error (.invalidArgument "ciphertext sha256 must be hex sha256")
  else if sizeBytes ≤ 0 then .error .objectMetadataMismatch
  else .ok ciphertextSHA256

section Service

variable (cfg : Config)

def createWorkspace (cryptoVersion : String) : Program WorkspaceRow :=
  if trim cryptoVersion = "" then fail (.invalidArgument "crypto version is required")
  else withTx do
    let _ : AccountRow ← sql .ensureSyncUsageAccount
    let locked : Option AccountRow ← sql .getSyncUsageAccountForUpdate
    let usage ← orNoRows locked
    if cfg.maxWorkspacesPerUser ≤ usage.workspaceCount then
      fail (.quota .workspaceCount cfg.maxWorkspacesPerUser usage.workspaceCount 1)
    else do
      let workspace : WorkspaceRow ← sql .createSyncWorkspace
      let _ : UsageRow ← sql (.createSyncUsageWorkspace workspace.id)
      let _ : Unit ← sql (.incrementSyncUsageWorkspaceCount 1)
      pure workspace

def deleteWorkspace (workspaceID : Uuid) : Program Unit :=
  withTx do
    let _ : AccountRow ← sql .ensureSyncUsageAccount
    let locked : Option AccountRow ← sql .getSyncUsageAccountForUpdate
    let _ ← orNoRows locked
    let _ : Unit ← sql (.softDeleteSyncWorkspace workspaceID)
    let counted : Option AccountRow ← sql .recalculateSyncUsageAccount
    let _ ← orNoRows counted
    pure ()

structure ObjectReservationRequest where
  clientObjectRef : String
  /-- `none` is a kind the server does not know. -/
  kind : Option KukuSyncObjectKind
  /-- The random id `newObjectID` makes for it. -/
  newObjectID : String

def objectKindToSQL : Option KukuSyncObjectKind → Program KukuSyncObjectKind
  | some kind => pure kind
  | none => fail (.invalidArgument "unsupported object kind")

def objectStorageKey (userID workspaceID : Uuid) (objectID : String) : String :=
  "sync/" ++ cfg.storageNamespace ++ "/users/" ++ uuidString userID ++ "/workspaces/" ++
    uuidString workspaceID ++ "/objects/" ++ objectID

/-- The loop of `ReserveObjectIDs`. -/
def reserveObjects (driver : Provider) (userID workspaceID deviceID : Uuid) (expiresAt : Int) :
    List ObjectReservationRequest → Program (List ObjectRow)
  | [] => pure []
  | request :: rest => do
    if trim request.clientObjectRef = "" then
      fail (.invalidArgument "client object ref is required")
    else do
      let kind ← objectKindToSQL request.kind
      let object : ObjectRow ← sql (.createReservedSyncObject
        { workspaceID
          objectID := request.newObjectID
          objectKind := kind
          storageProvider := driver
          storageKey := objectStorageKey cfg userID workspaceID request.newObjectID
          ciphertextSha256 := ""
          sizeBytes := 0
          uploadState := .reserved
          errorReason := none
          createdByDeviceID := some deviceID
          expiresAt := some expiresAt
          deleted := false })
      let others ← reserveObjects driver userID workspaceID deviceID expiresAt rest
      pure (object :: others)

def reserveObjectIDs (driver : Provider) (userID workspaceID deviceID : Uuid)
    (requests : List ObjectReservationRequest) : Program (List ObjectRow) :=
  if requests.length = 0 ∨ maxBatch < requests.length then
    fail (.invalidArgument "invalid object reservation count")
  else withTx do
    let _ ← authorizeWorkspace workspaceID
    let device ← requireActiveDevice workspaceID deviceID
    let now : Int ← Prog.perform Call.now
    let reserved ← reserveObjects cfg driver userID workspaceID device.id
      (now + cfg.maxPendingUploadAge) requests
    let _ : Unit ← sql (.touchSyncDeviceLastSeen workspaceID device.id)
    pure reserved

/-! ### Upload batches -/

structure UploadObjectRequest where
  objectID : String
  kind : Option KukuSyncObjectKind
  ciphertextSHA256 : String
  sizeBytes : Int

/-- An object of a batch and what the request says of it. -/
structure Candidate where
  object : ObjectRow
  ciphertextSHA256 : String
  sizeBytes : Int

def checkUploadBatchQuota (account : AccountRow) (workspace : UsageRow) (additional : Int) :
    Except StorageError Unit :=
  if cfg.maxPendingUploadBytes < int64 (workspace.pendingUploadBytes + additional) then
    .error (.quota .pendingUploadBytes cfg.maxPendingUploadBytes workspace.pendingUploadBytes
      additional)
  else if cfg.maxTotalStorageBytesPerUser <
      int64 (int64 (account.totalStorageBytes + account.pendingUploadBytes) + additional) then
    .error (.quota .userTotalStorageBytes cfg.maxTotalStorageBytesPerUser
      (int64 (account.totalStorageBytes + account.pendingUploadBytes)) additional)
  else if cfg.maxStorageBytesPerWorkspace <
      int64 (int64 (workspace.storageBytes + workspace.pendingUploadBytes) + additional) then
    .error (.quota .workspaceStorageBytes cfg.maxStorageBytesPerWorkspace
      (int64 (workspace.storageBytes + workspace.pendingUploadBytes)) additional)
  else .ok ()

/-- The first loop of `CreateObjectUploadBatch`: the objects of the batch, and the bytes of
those that were only reserved. -/
def uploadCandidates (driver : Provider) (workspaceID deviceID : Uuid) (now : Int) :
    List UploadObjectRequest → List String → List Candidate → Int → Program (List Candidate × Int)
  | [], _, candidates, additional => pure (candidates, additional)
  | request :: rest, seen, candidates, additional =>
    let objectID := trim request.objectID
    if objectID = "" then fail (.invalidArgument "object id is required")
    else if objectID ∈ seen then fail (.invalidArgument "duplicate upload object id")
    else do
      let kind ← objectKindToSQL request.kind
      let sha ← Prog.ofExcept
        (validateCiphertextDescriptor request.ciphertextSHA256 request.sizeBytes)
      if cfg.maxSingleBlobBytes < request.sizeBytes then
        fail (.quota .singleBlobBytes cfg.maxSingleBlobBytes 0 request.sizeBytes)
      else do
        let found : Option ObjectRow ← sql (.getSyncObjectForUpdate workspaceID objectID)
        match found with
        | none => fail .permissionDenied
        | some object => do
          requireObjectReservedByDevice object deviceID
          if object.objectKind ≠ kind then fail .objectMetadataMismatch
          else if object.storageProvider ≠ driver then fail .objectMetadataMismatch
          else match object.uploadState with
            | .reserved =>
              uploadCandidates driver workspaceID deviceID now rest (objectID :: seen)
                (candidates ++ [⟨object, sha, request.sizeBytes⟩])
                (int64 (additional + request.sizeBytes))
            | .pending =>
              if object.ciphertextSha256 ≠ sha ∨ object.sizeBytes ≠ request.sizeBytes then
                fail .objectMetadataMismatch
              else if object.expiresAt.any (· ≤ now) then fail .objectNotAvailable
              else
                uploadCandidates driver workspaceID deviceID now rest (objectID :: seen)
                  (candidates ++ [⟨object, sha, request.sizeBytes⟩]) additional
            | _ => fail .objectNotAvailable

/-- The second loop of `CreateObjectUploadBatch`. -/
def markCandidates (workspaceID : Uuid) (expiresAt : Int) :
    List Candidate → Program (List (String × String))
  | [] => pure []
  | candidate :: rest => do
    let marked : Option ObjectRow ← sql (.markSyncObjectPending workspaceID
      candidate.object.objectID candidate.ciphertextSHA256 candidate.sizeBytes expiresAt)
    let object ← orNoRows marked
    let url : String ← Prog.perform (Call.presignPut object.storageKey
      candidate.ciphertextSHA256 candidate.sizeBytes)
    let targets ← markCandidates workspaceID expiresAt rest
    pure ((object.objectID, url) :: targets)

def createObjectUploadBatch (driver : Provider) (workspaceID deviceID : Uuid)
    (uploadAttemptID : String) (requests : List UploadObjectRequest) :
    Program (List (String × String)) :=
  if trim uploadAttemptID = "" then fail (.invalidArgument "upload attempt id is required")
  else if requests.length = 0 ∨ maxBatch < requests.length then
    fail (.invalidArgument "invalid upload batch object count")
  else if driver ≠ .s3Compatible then fail .notImplemented
  else withTx do
    let _ ← authorizeWorkspace workspaceID
    let device ← requireActiveDevice workspaceID deviceID
    let accountLocked : Option AccountRow ← sql .getSyncUsageAccountForUpdate
    let accountUsage ← orNoRows accountLocked
    let workspaceLocked : Option UsageRow ← sql (.getSyncUsageWorkspaceForUpdate workspaceID)
    let workspaceUsage ← orNoRows workspaceLocked
    let now : Int ← Prog.perform Call.now
    let batch ← uploadCandidates cfg driver workspaceID device.id now requests [] [] 0
    Prog.ofExcept (checkUploadBatchQuota cfg accountUsage workspaceUsage batch.2)
    if 0 < batch.2 then
      let _ : Unit ← sql (.addSyncUsagePendingBytes workspaceID batch.2)
      let _ : Unit ← sql (.addSyncUsageAccountPendingBytes batch.2)
      let targets ← markCandidates workspaceID (now + cfg.maxPendingUploadAge) batch.1
      let _ : Unit ← sql (.touchSyncDeviceLastSeen workspaceID device.id)
      pure targets
    else do
      let targets ← markCandidates workspaceID (now + cfg.maxPendingUploadAge) batch.1
      let _ : Unit ← sql (.touchSyncDeviceLastSeen workspaceID device.id)
      pure targets

/-! ### Completions -/

structure CompletedObjectUploadRequest where
  objectID : String
  ciphertextSHA256 : String
  sizeBytes : Int

structure ObjectUploadResult where
  object : ObjectRow
  errorReason : Option ObjectErrorReason

def failPendingObject (workspaceID : Uuid) (object : ObjectRow)
    (reason : ObjectErrorReason) : Program ObjectRow := do
  if 0 < object.sizeBytes then
    let _ : Unit ← sql (.releaseSyncUsagePendingBytes workspaceID object.sizeBytes)
    let _ : Unit ← sql (.releaseSyncUsageAccountPendingBytes object.sizeBytes)
    let failed : Option ObjectRow ← sql (.markSyncObjectFailed workspaceID object.objectID reason)
    orNoRows failed
  else do
    let failed : Option ObjectRow ← sql (.markSyncObjectFailed workspaceID object.objectID reason)
    orNoRows failed

/-- A pending object whose upload has been found good. -/
def completePendingObject (workspaceID : Uuid) (object : ObjectRow) : Program ObjectRow := do
  let marked : Option ObjectRow ← sql (.markSyncObjectAvailable workspaceID object.objectID
    object.ciphertextSha256 object.sizeBytes)
  let available ← orNoRows marked
  let _ : Unit ← sql (.completeSyncUsageObjectBytes workspaceID object.sizeBytes)
  let _ : Unit ← sql (.completeSyncUsageAccountObjectBytes object.sizeBytes)
  pure available

/-- Why a pending object cannot be completed, as far as its row and the request tell. -/
def pendingMismatch (object : ObjectRow) (now : Int) (sha : String) (sizeBytes : Int) :
    Option ObjectErrorReason :=
  if object.expiresAt.any (· ≤ now) then some .uploadExpired
  else if object.sizeBytes ≠ sizeBytes then some .sizeMismatch
  else if object.ciphertextSha256 ≠ sha then some .checksumMismatch
  else none

/-- Why it cannot be completed, as far as the object store tells. -/
def blobMismatch (object : ObjectRow) : Option BlobMetadata → Option ObjectErrorReason
  | none => some .storageProviderError
  | some metadata =>
    if metadata.sizeBytes ≠ object.sizeBytes then some .sizeMismatch
    else if asciiLower (trim metadata.ciphertextSha256) ≠ object.ciphertextSha256 then
      some .checksumMismatch
    else none

/-- One turn of the loop of `CompleteObjectUploadBatch`, for an object that is not available
yet. -/
def completeObject (workspaceID : Uuid) (object : ObjectRow) (now : Int) (sha : String)
    (sizeBytes : Int) : Program ObjectUploadResult :=
  if object.uploadState ≠ .pending then fail .objectNotAvailable
  else match pendingMismatch object now sha sizeBytes with
    | some reason => do
      let failed ← failPendingObject workspaceID object reason
      pure ⟨failed, some reason⟩
    | none => do
      let metadata : Option BlobMetadata ← Prog.perform (Call.head object.storageKey)
      match blobMismatch object metadata with
      | some reason => do
        let failed ← failPendingObject workspaceID object reason
        pure ⟨failed, some reason⟩
      | none => do
        let available ← completePendingObject workspaceID object
        pure ⟨available, none⟩

def completeObjects (workspaceID deviceID : Uuid) (now : Int) :
    List CompletedObjectUploadRequest → List String → Program (List ObjectUploadResult)
  | [], _ => pure []
  | request :: rest, seen =>
    let objectID := trim request.objectID
    if objectID = "" then fail (.invalidArgument "object id is required")
    else if objectID ∈ seen then fail (.invalidArgument "duplicate complete object id")
    else do
      let sha ← Prog.ofExcept
        (validateCiphertextDescriptor request.ciphertextSHA256 request.sizeBytes)
      let found : Option ObjectRow ← sql (.getSyncObjectForUpdate workspaceID objectID)
      match found with
      | none => fail .permissionDenied
      | some object => do
        requireObjectReservedByDevice object deviceID
        if object.uploadState = .available then
          if object.ciphertextSha256 = sha ∧ object.sizeBytes = request.sizeBytes then
            let others ← completeObjects workspaceID deviceID now rest (objectID :: seen)
            pure (⟨object, none⟩ :: others)
          else fail .objectMetadataMismatch
        else do
          let result ← completeObject workspaceID object now sha request.sizeBytes
          let others ← completeObjects workspaceID deviceID now rest (objectID :: seen)
          pure (result :: others)

def completeObjectUploadBatch (driver : Provider) (workspaceID deviceID : Uuid)
    (uploadAttemptID : String) (requests : List CompletedObjectUploadRequest) :
    Program (List ObjectUploadResult) :=
  if trim uploadAttemptID = "" then fail (.invalidArgument "upload attempt id is required")
  else if requests.length = 0 ∨ maxBatch < requests.length then
    fail (.invalidArgument "invalid complete upload batch object count")
  else if driver ≠ .s3Compatible then fail .notImplemented
  else withTx do
    let _ ← authorizeWorkspace workspaceID
    let device ← requireActiveDevice workspaceID deviceID
    let accountLocked : Option AccountRow ← sql .getSyncUsageAccountForUpdate
    let _ ← orNoRows accountLocked
    let workspaceLocked : Option UsageRow ← sql (.getSyncUsageWorkspaceForUpdate workspaceID)
    let _ ← orNoRows workspaceLocked
    let now : Int ← Prog.perform Call.now
    let results ← completeObjects workspaceID device.id now requests []
    let _ : Unit ← sql (.touchSyncDeviceLastSeen workspaceID device.id)
    pure results

/-! ### Direct bytes -/

def validateCiphertextMetadata (ciphertextSHA256 : String) (sizeBytes : Int)
    (encryptedBlob : Bytes) : Except StorageError Unit := do
  let ciphertextSHA256 ← validateCiphertextDescriptor ciphertextSHA256 sizeBytes
  if (encryptedBlob.length : Int) ≠ sizeBytes then .error .objectMetadataMismatch
  else if cfg.sha256Hex encryptedBlob ≠ ciphertextSHA256 then .error .objectMetadataMismatch
  else .ok ()

/-- The quota checks of `UploadObjectBytesDev`. -/
def checkDirectQuota (account : AccountRow) (workspace : UsageRow) (sizeBytes : Int) :
    Except StorageError Unit :=
  if cfg.maxTotalStorageBytesPerUser < int64 (account.totalStorageBytes + sizeBytes) then
    .error (.quota .userTotalStorageBytes cfg.maxTotalStorageBytesPerUser
      account.totalStorageBytes sizeBytes)
  else if cfg.maxStorageBytesPerWorkspace < int64 (workspace.storageBytes + sizeBytes) then
    .error (.quota .workspaceStorageBytes cfg.maxStorageBytesPerWorkspace workspace.storageBytes
      sizeBytes)
  else .ok ()

def uploadObjectBytesDev (workspaceID deviceID : Uuid) (objectID ciphertextSHA256 : String)
    (sizeBytes : Int) (encryptedBlob : Bytes) : Program ObjectRow :=
  if !cfg.directBytesDevEnabled then fail .devBytesDisabled
  else do
    let ciphertextSHA256 := asciiLower (trim ciphertextSHA256)
    Prog.ofExcept (validateCiphertextMetadata cfg ciphertextSHA256 sizeBytes encryptedBlob)
    if cfg.maxSingleBlobBytes < sizeBytes then
      fail (.quota .singleBlobBytes cfg.maxSingleBlobBytes 0 sizeBytes)
    else withTx do
      let _ ← authorizeWorkspace workspaceID
      let _ ← requireActiveDevice workspaceID deviceID
      let accountLocked : Option AccountRow ← sql .getSyncUsageAccountForUpdate
      let accountUsage ← orNoRows accountLocked
      let workspaceLocked : Option UsageRow ← sql (.getSyncUsageWorkspaceForUpdate workspaceID)
      let workspaceUsage ← orNoRows workspaceLocked
      Prog.ofExcept (checkDirectQuota cfg accountUsage workspaceUsage sizeBytes)
      let found : Option ObjectRow ← sql (.getSyncObjectForUpdate workspaceID objectID)
      match found with
      | none => fail .permissionDenied
      | some current =>
        if current.storageProvider ≠ .localStore then fail .devBytesDisabled
        else if current.uploadState = .available then
          if current.ciphertextSha256 = ciphertextSHA256 ∧ current.sizeBytes = sizeBytes then
            pure current
          else fail .objectMetadataMismatch
        else if current.uploadState ≠ .reserved ∧ current.uploadState ≠ .pending then
          fail .objectNotAvailable
        else do
          let _ : Unit ← Prog.perform (Call.putBlob current.storageKey
            ⟨sizeBytes, ciphertextSHA256⟩)
          let marked : Option ObjectRow ← sql (.markSyncObjectAvailable workspaceID objectID
            ciphertextSHA256 sizeBytes)
          let object ← orNoRows marked
          let _ : Unit ← sql (.addSyncUsageAvailableObjectBytes workspaceID sizeBytes)
          let _ : Unit ← sql (.addSyncUsageAccountAvailableObjectBytes sizeBytes)
          pure object

/-! ### Recalculation and garbage collection -/

structure SyncUsageSnapshot where
  account : AccountRow
  workspace : UsageRow

def recalculate (workspaceID : Uuid) : Program SyncUsageSnapshot := do
  let workspaceCounted : Option UsageRow ← sql (.recalculateSyncUsageWorkspace workspaceID)
  let workspaceUsage ← orNoRows workspaceCounted
  let accountCounted : Option AccountRow ← sql .recalculateSyncUsageAccount
  let accountUsage ← orNoRows accountCounted
  pure ⟨accountUsage, workspaceUsage⟩

def lockUsage (workspaceID : Uuid) : Program SyncUsageSnapshot := do
  let _ : AccountRow ← sql .ensureSyncUsageAccount
  let accountLocked : Option AccountRow ← sql .getSyncUsageAccountForUpdate
  let accountUsage ← orNoRows accountLocked
  let workspaceLocked : Option UsageRow ← sql (.getSyncUsageWorkspaceForUpdate workspaceID)
  let workspaceUsage ← orNoRows workspaceLocked
  pure ⟨accountUsage, workspaceUsage⟩

def recalculateSyncUsage (workspaceID : Uuid) : Program SyncUsageSnapshot :=
  withTx do
    let workspace ← authorizeWorkspace workspaceID
    let _ ← lockUsage workspace.id
    recalculate workspace.id

structure SyncGCOptions where
  dryRun : Bool
  now : Option Int
  orphanLimit : Int

structure SyncGCReport where
  orphanCandidates : List ObjectRow
  deletedOrphans : List ObjectRow
  usageBefore : SyncUsageSnapshot
  usageAfter : SyncUsageSnapshot

def defaultGCOrphanLimit : Int := 100

def deleteObjectBlob (object : ObjectRow) : Program Unit :=
  if object.storageKey = "" then pure () else Prog.perform (Call.deleteBlob object.storageKey)

/-- The loop of `RunWorkspaceGC`. -/
def deleteOrphans (workspaceID : Uuid) : List ObjectRow → Program (List ObjectRow)
  | [] => pure []
  | object :: rest => do
    deleteObjectBlob object
    let marked : Option ObjectRow ← sql (.markSyncObjectDeleted workspaceID object.objectID)
    let deleted ← orNoRows marked
    let others ← deleteOrphans workspaceID rest
    pure (deleted :: others)

def collectGarbage (workspaceID : Uuid) (dryRun : Bool) (now limit : Int) :
    Program SyncGCReport :=
  withTx do
    let _ ← authorizeWorkspace workspaceID
    let before ← lockUsage workspaceID
    let orphans : List ObjectRow ← sql (.listExpiredOrphanSyncObjectsForUpdate workspaceID now limit)
    if dryRun ∨ orphans.length = 0 then pure ⟨orphans, [], before, before⟩
    else do
      let deleted ← deleteOrphans workspaceID orphans
      let after ← recalculate workspaceID
      pure ⟨orphans, deleted, before, after⟩

def runWorkspaceGC (workspaceID : Uuid) (options : SyncGCOptions) : Program SyncGCReport :=
  let limit := if options.orphanLimit ≤ 0 then defaultGCOrphanLimit else options.orphanLimit
  match options.now with
  | some now => collectGarbage workspaceID options.dryRun now limit
  | none => do
    let now : Int ← Prog.perform Call.now
    collectGarbage workspaceID options.dryRun now limit

/-! ### Publication and downloads -/

def ObjectRow.toKukuSyncObject (row : ObjectRow) : KukuSyncObject := { row with }

def checkBody (params : PublishCommitParams) : Option ObjectRow → Program Unit
  | none => fail (.publish .objectNotAvailable)
  | some bodyObject =>
    if bodyObject.uploadState ≠ .available ∨ bodyObject.objectKind ≠ .commitBody then
      fail (.publish .objectNotAvailable)
    else if bodyObject.ciphertextSha256 ≠ params.bodyCiphertextSHA256 ∨
        bodyObject.sizeBytes ≠ params.bodySizeBytes then
      fail (.publish .objectMetadataMismatch)
    else pure ()

/-- The objects a commit references, as `validateCommitObjects` has listed them. -/
def checkListed (params : PublishCommitParams) (objects : List ObjectRow) : Program Unit :=
  if objects.length ≠ params.referencedObjectIDs.length then fail (.publish .objectNotAvailable)
  else match Kuku.Server.checkReferences (objects.map ObjectRow.toKukuSyncObject) with
    | .error error => fail (.publish error)
    | .ok () =>
      if params.commitKind = .checkpoint ∧
          ¬ objects.any (fun object => object.objectKind = .checkpointPack) then
        fail (.publish .objectNotAvailable)
      else pure ()

def validateCommitObjects (params : PublishCommitParams) : Program Unit := do
  let bodyObject : Option ObjectRow ← sql (.getSyncObjectForUpdate params.workspaceID
    params.bodyObjectID)
  checkBody params bodyObject
  if params.referencedObjectIDs.length = 0 then
    if params.commitKind = .checkpoint then fail (.publish .objectNotAvailable)
    else pure ()
  else do
    let objects : List ObjectRow ← sql (.listSyncObjectsByIDs params.workspaceID
      params.referencedObjectIDs)
    checkListed params objects

/-- `PublishCommit`, as far as it looks at objects. -/
def publishCommit (params : PublishCommitParams) : Program KukuSyncCommit :=
  match Kuku.Server.normalizePublishCommitParams params with
  | .error error => fail (.publish error)
  | .ok normalized => withTx do
      let _ ← authorizeWorkspace normalized.workspaceID
      validateCommitObjects normalized
      match Kuku.Server.commitKindToSQL normalized.commitKind with
      | .error error => fail (.publish error)
      | .ok commitKind => sql (.createSyncCommit normalized commitKind)

structure ObjectDownloadTarget where
  object : ObjectRow
  getURL : String

/-- The loop of `CreateObjectDownloadBatch`. -/
def downloadTargets (workspaceID : Uuid) :
    List String → List String → Program (List ObjectDownloadTarget)
  | [], _ => pure []
  | value :: rest, seen =>
    let objectID := trim value
    if objectID = "" then fail (.invalidArgument "object id is required")
    else if objectID ∈ seen then fail (.invalidArgument "duplicate download object id")
    else do
      let found : Option ObjectRow ← sql (.getSyncObject workspaceID objectID)
      match found with
      | none => fail .objectStoreNotFound
      | some object =>
        if object.uploadState ≠ .available then fail .objectNotAvailable
        else do
          let url : String ← Prog.perform (Call.presignGet object.storageKey)
          let targets ← downloadTargets workspaceID rest (objectID :: seen)
          pure (⟨object, url⟩ :: targets)

def createObjectDownloadBatch (driver : Provider) (workspaceID deviceID : Uuid)
    (objectIDs : List String) : Program (List ObjectDownloadTarget) :=
  if objectIDs.length = 0 ∨ maxBatch < objectIDs.length then
    fail (.invalidArgument "invalid download batch object count")
  else if driver ≠ .s3Compatible then fail .notImplemented
  else withTx do
    let _ ← authorizeWorkspace workspaceID
    let device ← requireActiveDevice workspaceID deviceID
    let targets ← downloadTargets workspaceID objectIDs []
    let _ : Unit ← sql (.touchSyncDeviceLastSeen workspaceID device.id)
    pure targets

end Service

end Kuku.Storage
