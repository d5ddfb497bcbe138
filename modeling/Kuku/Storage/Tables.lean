/-
# Storage.Tables -- the object and usage tables of the sync service

The rows of `sql/migrations/00005_sync.sql` that the storage transactions read and
write: workspaces, devices, objects, the usage of each workspace and of each
account, and the published commits.  Columns no storage transaction reads
(timestamps of creation, encrypted names, `available_at`) are left out.

`Db` has the rows of one user.  Every storage statement names the caller's account or a
workspace that the transaction has found to be the caller's, and an owner never
changes, so the rows of two users never meet; `Storage.Accounting` puts the users
together again.

A transaction does not write a table.  It makes row versions (`Write`), which it
sees itself and which `Db.apply` puts into the tables when it commits.
-/
import Kuku.Server.PublishCommit
import Kuku.Theory.Table

namespace Kuku.Storage

open Kuku.Theory Table
open Kuku.Server (Uuid KukuSyncObjectKind KukuSyncObjectState KukuSyncObject KukuSyncCommit)

/-- `kuku.sync_storage_provider`, and the driver of a server's object store. -/
inductive Provider where
  | localStore
  | s3Compatible
  deriving DecidableEq

/-- `kuku.sync_object_error_reason`. -/
inductive ObjectErrorReason where
  | uploadExpired
  | sizeMismatch
  | checksumMismatch
  | storageProviderError

structure WorkspaceRow where
  id : Uuid
  deleted : Bool

structure DeviceRow where
  workspaceID : Uuid
  id : Uuid
  revoked : Bool

structure ObjectRow where
  workspaceID : Uuid
  objectID : String
  objectKind : KukuSyncObjectKind
  storageProvider : Provider
  storageKey : String
  ciphertextSha256 : String
  sizeBytes : Int
  uploadState : KukuSyncObjectState
  errorReason : Option ObjectErrorReason
  createdByDeviceID : Option Uuid
  expiresAt : Option Int
  deleted : Bool

/-- `kuku.sync_usage_workspaces`. -/
@[ext]
structure UsageRow where
  workspaceID : Uuid
  storageBytes : Int
  objectCount : Int
  pendingUploadBytes : Int

/-- `kuku.sync_usage_accounts`. -/
@[ext]
structure AccountRow where
  workspaceCount : Int
  totalStorageBytes : Int
  pendingUploadBytes : Int
  deriving DecidableEq

/-- The primary key of `sync_objects`. -/
def ObjectRow.key (row : ObjectRow) : Uuid × String := (row.workspaceID, row.objectID)

/-- The rows of one user. -/
structure Db where
  workspaces : List WorkspaceRow
  devices : List DeviceRow
  objects : List ObjectRow
  usages : List UsageRow
  account : Option AccountRow
  commits : List KukuSyncCommit

/-- A row version made by a transaction; `newWorkspace`, `newObject` and `syncCommit` are
inserted. -/
inductive Write where
  | newWorkspace (row : WorkspaceRow)
  | workspace (row : WorkspaceRow)
  | newObject (row : ObjectRow)
  | object (row : ObjectRow)
  | usage (row : UsageRow)
  | account (row : AccountRow)
  | syncCommit (row : KukuSyncCommit)

namespace Db

def empty : Db := ⟨[], [], [], [], none, []⟩

def workspace (db : Db) (id : Uuid) : Option WorkspaceRow := get WorkspaceRow.id db.workspaces id

def object (db : Db) (workspaceID : Uuid) (objectID : String) : Option ObjectRow :=
  get ObjectRow.key db.objects (workspaceID, objectID)

def usage (db : Db) (workspaceID : Uuid) : Option UsageRow :=
  get UsageRow.workspaceID db.usages workspaceID

def apply (db : Db) : Write → Db
  | .newWorkspace row => { db with workspaces := put WorkspaceRow.id db.workspaces row }
  | .workspace row => { db with workspaces := put WorkspaceRow.id db.workspaces row }
  | .newObject row => { db with objects := put ObjectRow.key db.objects row }
  | .object row => { db with objects := put ObjectRow.key db.objects row }
  | .usage row => { db with usages := put UsageRow.workspaceID db.usages row }
  | .account row => { db with account := some row }
  | .syncCommit row => { db with commits := db.commits ++ [row] }

/-- The tables as a transaction sees them. -/
def view (db : Db) (writes : List Write) : Db := writes.foldl apply db

@[simp] theorem view_nil (db : Db) : db.view [] = db := rfl

@[simp] theorem view_append (db : Db) (first second : List Write) :
    db.view (first ++ second) = (db.view first).view second := by
  simp [view]

@[simp] theorem view_singleton (db : Db) (write : Write) : db.view [write] = db.apply write := rfl

/-! ## What the usage rows count -/

/-- The rows of a workspace. -/
def objectsOf (db : Db) (workspaceID : Uuid) : List ObjectRow :=
  db.objects.filter fun row => row.workspaceID = workspaceID

end Db

/-- A row's bytes, if it is in the given state. -/
def ObjectRow.bytesIn (state : KukuSyncObjectState) (row : ObjectRow) : Int :=
  if row.uploadState = state ∧ row.deleted = false then row.sizeBytes else 0

/-- One for an available row. -/
def ObjectRow.available (row : ObjectRow) : Int :=
  if row.uploadState = .available ∧ row.deleted = false then 1 else 0

/-- What `RecalculateSyncUsageWorkspace` computes. -/
def Db.counted (db : Db) (workspaceID : Uuid) : UsageRow where
  workspaceID
  storageBytes := total (ObjectRow.bytesIn .available) (db.objectsOf workspaceID)
  objectCount := total ObjectRow.available (db.objectsOf workspaceID)
  pendingUploadBytes := total (ObjectRow.bytesIn .pending) (db.objectsOf workspaceID)

/-- A live workspace's share of its owner's account; a workspace without a usage row
counts, and has no bytes. -/
def Db.share (db : Db) (f : UsageRow → Int) (row : WorkspaceRow) : Int :=
  if row.deleted then 0 else (db.usage row.id).elim 0 f

/-- What `RecalculateSyncUsageAccount` computes. -/
def Db.accounted (db : Db) : AccountRow where
  workspaceCount := total (fun row => if row.deleted then 0 else 1) db.workspaces
  totalStorageBytes := total (db.share UsageRow.storageBytes) db.workspaces
  pendingUploadBytes := total (db.share UsageRow.pendingUploadBytes) db.workspaces

end Kuku.Storage
