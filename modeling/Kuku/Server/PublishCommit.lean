/-
# Server.PublishCommit -- the publish transaction and the tables it touches

The embedding of `apps/server/internal/sync/commit.go` over the tables of
`sql/migrations/00005_sync.sql` and `00006_sync_publish_expected_head.sql`, with
the queries of `sql/queries/sync.sql`.  Each SQL statement of the transaction is
one function here; `Server.PublishInterleaving` runs them one at a time.

* `normalizePublishCommitParams` is the check made before the transaction opens.
* `existingCommit`, `checkHead`, `checkDevice`, `checkParentKind`, `validateBody`
  and `validateReferences` are the checks between its statements.
* `Write` and `Db.applyWrite` are the rows the transaction inserts and updates.

Two functions are outside the repository and are parameters (`Service`): Ed25519
verification and the JSON encoding of the signed payload.  Row data that no
statement of the transaction reads (timestamps, encrypted names, encryption keys)
is left out.
-/
import Kuku.Theory.Text

namespace Kuku.Server

open Kuku.Theory

abbrev Bytes := List UInt8

abbrev Uuid := BitVec 128

/-- `uuid.Nil`. -/
def Uuid.nil : Uuid := 0

/-! ## Rows -/

/-- `syncv1.SyncCommitKind`. -/
inductive SyncCommitKind where
  | unspecified
  | incremental
  | merge
  | checkpoint
  deriving DecidableEq

/-- `kuku.sync_commit_kind`. -/
inductive KukuSyncCommitKind where
  | incremental
  | merge
  | checkpoint
  deriving DecidableEq

/-- `kuku.sync_object_kind`. -/
inductive KukuSyncObjectKind where
  | commitBody
  | contentPack
  | checkpointPack
  | largeObject
  deriving DecidableEq

/-- `kuku.sync_object_state`. -/
inductive KukuSyncObjectState where
  | reserved
  | pending
  | available
  | failed
  | deleted
  deriving DecidableEq

/-- `kuku.sync_commit_object_role`. -/
inductive KukuSyncCommitObjectRole where
  | body
  | contentPack
  | checkpointPack
  | largeObject

structure KukuSyncWorkspace where
  id : Uuid
  ownerUserID : Uuid
  currentHeadCommitID : Option String
  headVersion : Nat
  deleted : Bool
  deriving DecidableEq

/-- The row `UpdateSyncWorkspaceHead` writes and returns. -/
def KukuSyncWorkspace.withHead (workspace : KukuSyncWorkspace) (commitID : Option String) :
    KukuSyncWorkspace :=
  { workspace with
    currentHeadCommitID := commitID
    headVersion := workspace.headVersion + 1 }

structure KukuSyncDevice where
  workspaceID : Uuid
  id : Uuid
  userID : Uuid
  signingPublicKey : Bytes
  lastDeviceSeq : Int
  revoked : Bool
  deriving DecidableEq

structure KukuSyncObject where
  workspaceID : Uuid
  objectID : String
  objectKind : KukuSyncObjectKind
  ciphertextSha256 : String
  sizeBytes : Int
  uploadState : KukuSyncObjectState
  deleted : Bool

structure KukuSyncCommit where
  workspaceID : Uuid
  commitID : String
  commitKind : KukuSyncCommitKind
  expectedHeadCommitID : Option String
  authorDeviceID : Uuid
  deviceSeq : Int
  parentCommitIds : List String
  bodyObjectID : String
  bodyCiphertextSha256 : String
  bodySizeBytes : Int
  referencedObjectIds : List String
  signature : Bytes
  serverSeq : Nat
  deriving DecidableEq

structure KukuSyncCommitObject where
  workspaceID : Uuid
  commitID : String
  objectID : String
  objectRole : KukuSyncCommitObjectRole

structure KukuSyncDeviceCursor where
  lastSeenCommitID : Option String
  lastSeenCheckpointCommitID : Option String

/-- The committed tables.  `nextServerSeq` is the identity sequence behind
`server_seq`: it is not part of any transaction. -/
structure Db where
  workspaces : Uuid → Option KukuSyncWorkspace
  devices : Uuid → Uuid → Option KukuSyncDevice
  objects : Uuid → String → Option KukuSyncObject
  commits : List KukuSyncCommit
  commitObjects : List KukuSyncCommitObject
  cursors : Uuid → Uuid → Option KukuSyncDeviceCursor
  nextServerSeq : Nat

def Db.empty : Db where
  workspaces _ := none
  devices _ _ := none
  objects _ _ := none
  commits := []
  commitObjects := []
  cursors _ _ := none
  nextServerSeq := 1

/-! ## Requests -/

structure PublishCommitParams where
  workspaceID : Uuid
  commitID : String
  commitKind : SyncCommitKind
  expectedHeadCommitID : String
  parentCommitIDs : List String
  authorDeviceID : Uuid
  deviceSeq : Int
  bodyObjectID : String
  bodyCiphertextSHA256 : String
  bodySizeBytes : Int
  referencedObjectIDs : List String
  signature : Bytes

/-- `errors.go`.  `internal` stands for every error of the database driver. -/
inductive SyncError where
  | permissionDenied
  | invalidArgument
  | objectNotAvailable
  | objectMetadataMismatch
  | duplicateCommitPayload
  | duplicateDeviceSeq
  | invalidCommitParent
  | invalidSignature
  | headConflict (workspaceID : Uuid) (currentHeadID : String) (headVersion : Nat)
  | internal

structure PublishCommitResult where
  commit : KukuSyncCommit
  headVersion : Nat
  idempotent : Bool

/-- `commitSignaturePayload`, the fields in the order of its JSON tags. -/
structure CommitSignaturePayload where
  workspaceID : Uuid
  commitID : String
  commitKind : KukuSyncCommitKind
  expectedHeadCommitID : String
  parentCommitIDs : List String
  authorDeviceID : Uuid
  deviceSeq : Int
  bodyObjectID : String
  bodyCiphertextSHA256 : String
  bodySizeBytes : Int
  referencedObjectIDs : List String

/-- What the handler calls outside the repository: `ed25519.Verify` (public key,
message, signature) and `json.Marshal`. -/
structure Service where
  verify : Bytes → Bytes → Bytes → Bool
  marshal : CommitSignaturePayload → Bytes

/-- `ed25519.PublicKeySize`. -/
def publicKeySize : Nat := 32

/-- `ed25519.SignatureSize`. -/
def signatureSize : Nat := 64

/-- `database.Text`. -/
def text (value : String) : Option String :=
  if value = "" then none else some value

def textValue : Option String → String
  | none => ""
  | some value => value

def normalizeIDsPreserveOrder (values : List String) : List String :=
  (values.map Text.trim).filter (· ≠ "")

def normalizeIDsSorted (values : List String) : List String :=
  (normalizeIDsPreserveOrder values).insertionSort (· ≤ ·)

def hasDuplicate (values : List String) : Bool := !decide values.Nodup

def commitKindToSQL : SyncCommitKind → Except SyncError KukuSyncCommitKind
  | .incremental => .ok .incremental
  | .merge => .ok .merge
  | .checkpoint => .ok .checkpoint
  | .unspecified => .error .invalidArgument

def commitKindToProto : KukuSyncCommitKind → SyncCommitKind
  | .incremental => .incremental
  | .merge => .merge
  | .checkpoint => .checkpoint

def isHexDigit (c : Char) : Bool :=
  ('0' ≤ c && c ≤ '9') || ('a' ≤ c && c ≤ 'f') || ('A' ≤ c && c ≤ 'F')

/-- `hex.DecodeString` succeeds. -/
def isHex (value : String) : Bool := value.toList.length % 2 == 0 && value.toList.all isHexDigit

/-- The digest is lowered by ASCII rules: no other character has a lower case
that `hex.DecodeString` accepts, so the two rules accept the same digests. -/
def normalizePublishCommitParams (params : PublishCommitParams) :
    Except SyncError PublishCommitParams := do
  let params := { params with
    commitID := Text.trim params.commitID
    expectedHeadCommitID := Text.trim params.expectedHeadCommitID
    bodyObjectID := Text.trim params.bodyObjectID
    bodyCiphertextSHA256 := Text.asciiLower (Text.trim params.bodyCiphertextSHA256) }
  if params.workspaceID = Uuid.nil ∨ params.commitID = "" ∨
      params.authorDeviceID = Uuid.nil ∨ params.bodyObjectID = "" ∨
      params.deviceSeq ≤ 0 ∨ params.bodySizeBytes ≤ 0 ∨
      params.signature.length ≠ signatureSize then
    throw .invalidArgument
  let _ ← commitKindToSQL params.commitKind
  if (Text.utf8 params.bodyCiphertextSHA256).length ≠ 64 then throw .invalidArgument
  if !isHex params.bodyCiphertextSHA256 then throw .invalidArgument
  let params := { params with
    parentCommitIDs := normalizeIDsPreserveOrder params.parentCommitIDs }
  if hasDuplicate params.parentCommitIDs then throw .invalidCommitParent
  let params := { params with
    referencedObjectIDs := normalizeIDsSorted params.referencedObjectIDs }
  if hasDuplicate params.referencedObjectIDs then throw .invalidArgument
  if params.bodyObjectID ∈ params.referencedObjectIDs then throw .invalidArgument
  return params

def canonicalCommitPayload (svc : Service) (params : PublishCommitParams) :
    Except SyncError Bytes := do
  let commitKind ← commitKindToSQL params.commitKind
  return svc.marshal { params with commitKind }

def canonicalCommitPayloadFromSQL (svc : Service) (commit : KukuSyncCommit) :
    Except SyncError Bytes :=
  canonicalCommitPayload svc
    { commit with
      commitKind := commitKindToProto commit.commitKind
      expectedHeadCommitID := textValue commit.expectedHeadCommitID
      parentCommitIDs := commit.parentCommitIds
      bodyCiphertextSHA256 := commit.bodyCiphertextSha256
      referencedObjectIDs := normalizeIDsSorted commit.referencedObjectIds
      signature := [] }

def commitMatchesPayload (svc : Service) (commit : KukuSyncCommit)
    (canonicalPayload signature : Bytes) : Except SyncError Bool := do
  let existingPayload ← canonicalCommitPayloadFromSQL svc commit
  return existingPayload == canonicalPayload && commit.signature == signature

/-! ## Queries -/

namespace Db

/-- `GetSyncWorkspaceByIDAndOwner`, and the row `GetSyncWorkspaceForUpdate`
returns once its lock is granted. -/
def getSyncWorkspace (db : Db) (id owner : Uuid) : Option KukuSyncWorkspace :=
  (db.workspaces id).filter fun row => row.ownerUserID = owner ∧ row.deleted = false

def getSyncCommit (db : Db) (workspaceID : Uuid) (commitID : String) :
    Option KukuSyncCommit :=
  db.commits.find? fun c => c.workspaceID = workspaceID ∧ c.commitID = commitID

/-- `GetActiveSyncDeviceForUpdate`. -/
def getActiveSyncDevice (db : Db) (workspaceID id userID : Uuid) : Option KukuSyncDevice :=
  (db.devices workspaceID id).filter fun row => row.userID = userID ∧ row.revoked = false

/-- `GetSyncObjectForUpdate`. -/
def getSyncObject (db : Db) (workspaceID : Uuid) (objectID : String) :
    Option KukuSyncObject :=
  (db.objects workspaceID objectID).filter fun row => row.deleted = false

/-- `ListSyncObjectsByIDs`; the ids it is given are sorted and distinct, so the
rows come in their order. -/
def listSyncObjectsByIDs (db : Db) (workspaceID : Uuid) (ids : List String) :
    List KukuSyncObject :=
  ids.filterMap (db.getSyncObject workspaceID)

end Db

/-! ## Checks between the statements -/

def authorizeWorkspace (db : Db) (userID workspaceID : Uuid) :
    Except SyncError KukuSyncWorkspace :=
  match db.getSyncWorkspace workspaceID userID with
  | none => .error .permissionDenied
  | some workspace => .ok workspace

/-- The retry check: the stored commit when it carries the same payload. -/
def existingCommit (svc : Service) (db : Db) (params : PublishCommitParams)
    (canonicalPayload : Bytes) : Except SyncError (Option KukuSyncCommit) :=
  match db.getSyncCommit params.workspaceID params.commitID with
  | none => .ok none
  | some existing => do
    let same ← commitMatchesPayload svc existing canonicalPayload params.signature
    if !same then throw .duplicateCommitPayload
    return some existing

def checkHead (workspace : KukuSyncWorkspace) (params : PublishCommitParams) :
    Except SyncError Unit :=
  let currentHead := textValue workspace.currentHeadCommitID
  if currentHead ≠ params.expectedHeadCommitID then
    .error (.headConflict params.workspaceID currentHead workspace.headVersion)
  else .ok ()

def checkDevice (svc : Service) (device : KukuSyncDevice) (params : PublishCommitParams)
    (canonicalPayload : Bytes) : Except SyncError Unit := do
  if params.deviceSeq ≤ device.lastDeviceSeq then throw .duplicateDeviceSeq
  if device.signingPublicKey.length ≠ publicKeySize then throw .invalidSignature
  if !svc.verify device.signingPublicKey canonicalPayload params.signature then
    throw .invalidSignature

/-- The kind-dependent half of `validateParents`. -/
def checkParentKind (params : PublishCommitParams) : Except SyncError Unit :=
  match params.commitKind with
  | .checkpoint =>
    if params.expectedHeadCommitID = "" then
      if params.parentCommitIDs.length ≠ 0 then .error .invalidCommitParent else .ok ()
    else if params.parentCommitIDs.length ≠ 1 ∨
        params.parentCommitIDs.head? ≠ some params.expectedHeadCommitID then
      .error .invalidCommitParent
    else .ok ()
  | .incremental =>
    if params.expectedHeadCommitID = "" ∨ params.parentCommitIDs.length ≠ 1 ∨
        params.parentCommitIDs.head? ≠ some params.expectedHeadCommitID then
      .error .invalidCommitParent
    else .ok ()
  | .merge =>
    if params.expectedHeadCommitID = "" ∨ params.parentCommitIDs.length < 2 ∨
        params.expectedHeadCommitID ∉ params.parentCommitIDs then
      .error .invalidCommitParent
    else .ok ()
  | .unspecified => .error .invalidCommitParent

/-- One turn of the loop of `validateParents`. -/
def checkParent (db : Db) (params : PublishCommitParams) (parentID : String) :
    Except SyncError Unit :=
  match db.getSyncCommit params.workspaceID parentID with
  | none => .error .invalidCommitParent
  | some _ => .ok ()

/-- `validateCommitObjects` up to the body object. -/
def validateBody (db : Db) (params : PublishCommitParams) :
    Except SyncError KukuSyncObject :=
  match db.getSyncObject params.workspaceID params.bodyObjectID with
  | none => .error .objectNotAvailable
  | some bodyObject => do
    if bodyObject.uploadState ≠ .available ∨ bodyObject.objectKind ≠ .commitBody then
      throw .objectNotAvailable
    if bodyObject.ciphertextSha256 ≠ params.bodyCiphertextSHA256 ∨
        bodyObject.sizeBytes ≠ params.bodySizeBytes then
      throw .objectMetadataMismatch
    return bodyObject

/-- The loop over the referenced objects: the first bad object decides. -/
def checkReferences : List KukuSyncObject → Except SyncError Unit
  | [] => .ok ()
  | object :: rest =>
    if object.uploadState ≠ .available then .error .objectNotAvailable
    else if object.objectKind = .commitBody then .error .invalidArgument
    else checkReferences rest

/-- `validateCommitObjects` after the body object. -/
def validateReferences (db : Db) (params : PublishCommitParams) :
    Except SyncError (List KukuSyncObject) := do
  if params.referencedObjectIDs.length = 0 then
    if params.commitKind = .checkpoint then throw .objectNotAvailable
    return []
  let objects := db.listSyncObjectsByIDs params.workspaceID params.referencedObjectIDs
  if objects.length ≠ params.referencedObjectIDs.length then throw .objectNotAvailable
  checkReferences objects
  if params.commitKind = .checkpoint ∧
      ¬ objects.any (fun object => object.objectKind = .checkpointPack) then
    throw .objectNotAvailable
  return objects

def commitObjectRole : KukuSyncObjectKind → KukuSyncCommitObjectRole
  | .contentPack => .contentPack
  | .checkpointPack => .checkpointPack
  | .largeObject => .largeObject
  | .commitBody => .body

/-! ## Writes -/

/-- The rows the transaction writes, in the order of its statements. -/
inductive Write where
  | createSyncCommit (row : KukuSyncCommit)
  | createSyncCommitObject (row : KukuSyncCommitObject)
  | updateSyncDeviceSequence (workspaceID id userID : Uuid) (lastDeviceSeq : Int)
  | upsertSyncDeviceCursor (workspaceID deviceID : Uuid) (lastSeenCommitID
      lastSeenCheckpointCommitID : Option String)
  | updateSyncWorkspaceHead (id ownerUserID : Uuid) (commitID : Option String)

namespace Db

def applyWrite (db : Db) : Write → Db
  | .createSyncCommit row => { db with commits := db.commits ++ [row] }
  | .createSyncCommitObject row =>
    -- ON CONFLICT (workspace_id, commit_id, object_id) DO NOTHING
    if db.commitObjects.any (fun o => o.workspaceID = row.workspaceID ∧
        o.commitID = row.commitID ∧ o.objectID = row.objectID) then db
    else { db with commitObjects := db.commitObjects ++ [row] }
  | .updateSyncDeviceSequence workspaceID id userID lastDeviceSeq =>
    match db.getActiveSyncDevice workspaceID id userID with
    | none => db
    | some device =>
      let row := { device with lastDeviceSeq := lastDeviceSeq }
      { db with
        devices := Function.update db.devices workspaceID
          (Function.update (db.devices workspaceID) id (some row)) }
  | .upsertSyncDeviceCursor workspaceID deviceID commitID checkpointID =>
    let previous := (db.cursors workspaceID deviceID).bind (·.lastSeenCheckpointCommitID)
    { db with
      cursors := Function.update db.cursors workspaceID
        (Function.update (db.cursors workspaceID) deviceID
          (some ⟨commitID, checkpointID.or previous⟩)) }
  | .updateSyncWorkspaceHead id ownerUserID commitID =>
    match db.getSyncWorkspace id ownerUserID with
    | none => db
    | some workspace =>
      { db with
        workspaces := Function.update db.workspaces id (some (workspace.withHead commitID)) }

def applyWrites (db : Db) (writes : List Write) : Db := writes.foldl applyWrite db

end Db

def newSyncCommit (params : PublishCommitParams) (kind : KukuSyncCommitKind)
    (serverSeq : Nat) : KukuSyncCommit :=
  { params with
    commitKind := kind
    expectedHeadCommitID := text params.expectedHeadCommitID
    parentCommitIds := params.parentCommitIDs
    bodyCiphertextSha256 := params.bodyCiphertextSHA256
    referencedObjectIds := params.referencedObjectIDs
    serverSeq }

/-- The `sync_commit_objects` rows of a commit: its body, then its references. -/
def commitObjectRows (params : PublishCommitParams) (bodyObject : KukuSyncObject)
    (objects : List KukuSyncObject) : List KukuSyncCommitObject :=
  { workspaceID := params.workspaceID, commitID := params.commitID
    objectID := bodyObject.objectID, objectRole := .body } ::
  objects.map fun object =>
    { workspaceID := params.workspaceID, commitID := params.commitID
      objectID := object.objectID, objectRole := commitObjectRole object.objectKind }

/-- The unique constraints of `sync_commits` that a new row can violate. -/
def violatesUnique (db : Db) (row : KukuSyncCommit) : Bool :=
  db.commits.any fun c => c.workspaceID = row.workspaceID ∧
    (c.commitID = row.commitID ∨
      (c.authorDeviceID = row.authorDeviceID ∧ c.deviceSeq = row.deviceSeq))

def cursorWrite (params : PublishCommitParams) : Write :=
  .upsertSyncDeviceCursor params.workspaceID params.authorDeviceID (text params.commitID)
    (text (if params.commitKind = .checkpoint then params.commitID else ""))

end Kuku.Server
