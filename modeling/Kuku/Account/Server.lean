/-
# Account.Server -- the account's rows on the server

The rows of one account (`apps/server/internal/sync/service.go`, `sync.sql`): its
account key with the recovery envelope, its workspaces, the devices registered in
them and the commits published to them.  Every call is one transaction or one guarded
statement, so it is a function of the rows.  `PublishCommit` is taken whole here;
`Server.PublishInterleaving` has its statements.

What the client seals is symbolic: a `Blob` is a ciphertext with the key and the
associated data it was sealed with, and opens with these only (`account_keys.rs`).
The listing shows the row written last first.
-/
import Kuku.Sync.SyncError
import Kuku.Sync.VaultRecord

namespace Kuku.Account

open Kuku.Theory Kuku.Sync

abbrev SymmetricKey := BitVec 256

/-- A signing key stands for its public half as well. -/
abbrev SigningKey := BitVec 256

/-- `WorkspaceMetadataAad` and `WorkspaceKeyForAccountAad`. -/
structure WorkspaceAad where
  accountKeyId : String
  workspaceId : String
  version : Int
  deriving DecidableEq

/-- `DeviceMetadataAad`. -/
structure DeviceAad extends WorkspaceAad where
  deviceId : String

/-- A ciphertext under a subkey of the account root key. -/
structure Blob (Aad α : Type) where
  accountRootKey : SymmetricKey
  aad : Aad
  plaintext : α
  deriving DecidableEq

/-- `decrypt_blob`. -/
def Blob.decrypt {Aad α : Type} [DecidableEq Aad] (accountRootKey : SymmetricKey) (aad : Aad)
    (blob : Blob Aad α) : Except SyncError α :=
  if blob.accountRootKey = accountRootKey ∧ blob.aad = aad then .ok blob.plaintext
  else .error (.crypto "blob decrypt failed")

/-- The envelope that wraps the account root key under the recovery phrase. -/
structure AccountKeyEnvelope where
  accountKeyId : String
  envelopeId : String
  keyVersion : Int
  phrase : String
  accountRootKey : SymmetricKey

/-- A row of `sync_workspaces`; `none` for an empty ciphertext. -/
structure Workspace where
  workspaceId : String
  headVersion : Int
  encryptedMetadata : Option (Blob WorkspaceAad String)
  metadataVersion : Int
  encryptedWorkspaceKey : Option (Blob WorkspaceAad SymmetricKey)
  workspaceKeyVersion : Int
  deleted : Bool
  deriving DecidableEq

/-- A row of `sync_devices`. -/
structure Device where
  deviceId : String
  workspaceId : String
  signingPublicKey : SigningKey
  encryptedDeviceName : Option (Blob DeviceAad String)
  metadataVersion : Int

/-- A published commit, with the key its body and its packs are sealed under. -/
structure Commit where
  workspaceId : String
  commitId : String
  checkpoint : Bool
  authorDeviceId : String
  deviceSeq : Int
  workspaceKey : SymmetricKey

/-- The rows of one account, the commits in publishing order, and how many ids it has
minted. -/
structure Rows where
  accountKey : Option (String × AccountKeyEnvelope)
  workspaces : List Workspace
  devices : List Device
  commits : List Commit
  minted : Nat

def Rows.empty : Rows where
  accountKey := none
  workspaces := []
  devices := []
  commits := []
  minted := 0

/-- What the server and the desktop take from their hosts: `gen_random_uuid`, `uuid.Parse`
(to the canonical text), `str::to_lowercase`, `Path::file_name` and the machine's name. -/
structure Host where
  mint : Nat → String
  parseUuid : String → Option String
  toLowercase : String → String
  fileName : String → Option String
  computerName : Option String
  mint_injective : Function.Injective mint
  mint_ne_empty : ∀ n, mint n ≠ ""
  trim_mint : ∀ n, Text.trim (mint n) = mint n
  parseUuid_mint : ∀ n, parseUuid (mint n) = some (mint n)

/-- Ids in unary. -/
instance : Inhabited Host where
  default :=
    { mint := fun n => String.ofList (List.replicate (n + 1) 'a')
      parseUuid := some
      toLowercase := id
      fileName := fun _ => none
      computerName := none
      mint_injective := by
        intro m n same
        have sameLength := congrArg String.length same
        simpa using sameLength
      mint_ne_empty := by
        intro n isEmpty
        have isNil := congrArg String.length isEmpty
        simp at isNil
      trim_mint := by
        intro n
        apply Text.trim_eq_self
        intro c member
        rw [String.toList_ofList] at member
        rw [List.eq_of_mem_replicate member]
        decide
      parseUuid_mint := fun _ => rfl }

inductive ServerCall where
  | getAccountKeyState
  | listAccountKeyEnvelopes
  | createAccountKey (envelope : AccountKeyEnvelope)
  | listWorkspaces
  | createWorkspace
  | updateWorkspaceMetadata (workspaceId : String) (encryptedMetadata : Blob WorkspaceAad String)
      (metadataVersion expectedMetadataVersion : Int)
  | updateWorkspaceKey (workspaceId : String)
      (encryptedWorkspaceKey : Blob WorkspaceAad SymmetricKey)
      (workspaceKeyVersion expectedWorkspaceKeyVersion : Int)
  | deleteWorkspace (workspaceId : String)
  | registerDevice (workspaceId : String) (signingPublicKey : SigningKey)
  | updateDeviceMetadata (workspaceId deviceId : String)
      (encryptedDeviceName : Blob DeviceAad String)
      (metadataVersion expectedMetadataVersion : Int)
  | getHead (workspaceId : String)
  | listCommits (workspaceId : String)
  | publishCommit (commit : Commit) (expectedHeadCommitId : String) (signingKey : SigningKey)

abbrev ServerCall.Res : ServerCall → Type
  | getAccountKeyState => Option String
  | listAccountKeyEnvelopes => List AccountKeyEnvelope
  | createAccountKey _ => Unit
  | listWorkspaces => List Workspace
  | createWorkspace => Workspace
  | updateWorkspaceMetadata .. => Workspace
  | updateWorkspaceKey .. => Workspace
  | deleteWorkspace _ => Unit
  | registerDevice .. => Device
  | updateDeviceMetadata .. => Device
  | getHead _ => SyncHead
  | listCommits _ => List Commit
  | publishCommit .. => Unit

namespace Rows

variable (host : Host) (rows : Rows)

/-- `ListSyncWorkspacesByOwner`. -/
def live : List Workspace := rows.workspaces.filter fun workspace => !workspace.deleted

/-- `parseUUID` and `GetWorkspace`. -/
def getWorkspace (operation workspaceId : String) : Except SyncError Workspace :=
  match host.parseUuid (Text.trim workspaceId) with
  | none => .error (syncRpcError operation .invalidArgument "workspace_id must be a valid uuid")
  | some id =>
    match rows.live.find? fun workspace => workspace.workspaceId = id with
    | none => .error (syncRpcError operation .permissionDenied "permission denied")
    | some workspace => .ok workspace

/-- The row is written, and listed first from now on. -/
def put (workspace : Workspace) : Rows :=
  { rows with
    workspaces := workspace ::
      rows.workspaces.filter fun other => other.workspaceId ≠ workspace.workspaceId }

def createAccountKey (envelope : AccountKeyEnvelope) : Except SyncError Unit × Rows :=
  let envelope :=
    { envelope with
      accountKeyId := Text.trim envelope.accountKeyId
      envelopeId := Text.trim envelope.envelopeId }
  if envelope.accountKeyId = "" then
    (.error (syncRpcError "CreateAccountKey" .invalidArgument
      "invalid sync argument: account key id is required"), rows)
  else if rows.accountKey.isSome then
    (.error (syncRpcError "CreateAccountKey" .alreadyExists "sync account key already exists"),
      rows)
  else (.ok (), { rows with accountKey := some (envelope.accountKeyId, envelope) })

/-- The quota on workspaces is left to the environment, which may reject any call. -/
def createWorkspace : Except SyncError Workspace × Rows :=
  let workspace : Workspace :=
    { workspaceId := host.mint rows.minted
      headVersion := 0
      encryptedMetadata := none
      metadataVersion := 0
      encryptedWorkspaceKey := none
      workspaceKeyVersion := 0
      deleted := false }
  (.ok workspace,
    { rows with workspaces := workspace :: rows.workspaces, minted := rows.minted + 1 })

/-- The common part of `UpdateWorkspaceMetadata` and `UpdateWorkspaceKey`: the version
must follow the expected one, and the row must still have that one. -/
def updateVersioned (operation invalid workspaceId : String) (version expected : Int)
    (current : Workspace → Int) (change : Workspace → Workspace) :
    Except SyncError Workspace × Rows :=
  if expected < 0 ∨ version ≠ expected + 1 then
    (.error (syncRpcError operation .invalidArgument invalid), rows)
  else
    match rows.getWorkspace host operation workspaceId with
    | .error error => (.error error, rows)
    | .ok workspace =>
      if current workspace = expected then (.ok (change workspace), rows.put (change workspace))
      else (.error (syncRpcError operation .aborted "sync metadata version conflict"), rows)

def updateWorkspaceMetadata (workspaceId : String) (encryptedMetadata : Blob WorkspaceAad String)
    (metadataVersion expectedMetadataVersion : Int) : Except SyncError Workspace × Rows :=
  rows.updateVersioned host "UpdateWorkspaceMetadata"
    "invalid sync argument: invalid metadata version" workspaceId metadataVersion
    expectedMetadataVersion (·.metadataVersion) fun workspace =>
      { workspace with
        encryptedMetadata := some encryptedMetadata
        metadataVersion }

def updateWorkspaceKey (workspaceId : String)
    (encryptedWorkspaceKey : Blob WorkspaceAad SymmetricKey)
    (workspaceKeyVersion expectedWorkspaceKeyVersion : Int) : Except SyncError Workspace × Rows :=
  rows.updateVersioned host "UpdateWorkspaceKey"
    "invalid sync argument: invalid workspace key version" workspaceId workspaceKeyVersion
    expectedWorkspaceKeyVersion (·.workspaceKeyVersion) fun workspace =>
      { workspace with
        encryptedWorkspaceKey := some encryptedWorkspaceKey
        workspaceKeyVersion }

/-- A workspace that is not there is deleted too. -/
def deleteWorkspace (workspaceId : String) : Except SyncError Unit × Rows :=
  match host.parseUuid (Text.trim workspaceId) with
  | none =>
    (.error (syncRpcError "DeleteWorkspace" .invalidArgument
      "workspace_id must be a valid uuid"), rows)
  | some id =>
    (.ok (), { rows with
      workspaces := rows.workspaces.map fun workspace =>
        if workspace.workspaceId = id then { workspace with deleted := true } else workspace })

def registerDevice (workspaceId : String) (signingPublicKey : SigningKey) :
    Except SyncError Device × Rows :=
  match rows.getWorkspace host "RegisterDevice" workspaceId with
  | .error error => (.error error, rows)
  | .ok workspace =>
    let device : Device :=
      { deviceId := host.mint rows.minted
        workspaceId := workspace.workspaceId
        signingPublicKey
        encryptedDeviceName := none
        metadataVersion := 0 }
    (.ok device, { rows with devices := device :: rows.devices, minted := rows.minted + 1 })

def updateDeviceMetadata (workspaceId deviceId : String)
    (encryptedDeviceName : Blob DeviceAad String)
    (metadataVersion expectedMetadataVersion : Int) : Except SyncError Device × Rows :=
  let operation := "UpdateDeviceMetadata"
  if expectedMetadataVersion < 0 ∨ metadataVersion ≠ expectedMetadataVersion + 1 then
    (.error (syncRpcError operation .invalidArgument
      "invalid sync argument: invalid device metadata version"), rows)
  else
    match rows.getWorkspace host operation workspaceId with
    | .error error => (.error error, rows)
    | .ok workspace =>
      match host.parseUuid (Text.trim deviceId) with
      | none =>
        (.error (syncRpcError operation .invalidArgument "device_id must be a valid uuid"), rows)
      | some id =>
        match rows.devices.find? fun device =>
            device.deviceId = id ∧ device.workspaceId = workspace.workspaceId with
        | none => (.error (syncRpcError operation .permissionDenied "permission denied"), rows)
        | some device =>
          if device.metadataVersion = expectedMetadataVersion then
            let renamed :=
              { device with
                encryptedDeviceName := some encryptedDeviceName
                metadataVersion }
            (.ok renamed, { rows with
              devices := rows.devices.map fun other =>
                if other.deviceId = id then renamed else other })
          else
            (.error (syncRpcError operation .aborted "sync metadata version conflict"), rows)

def commitsOf (workspaceId : String) : List Commit :=
  rows.commits.filter fun commit => commit.workspaceId = workspaceId

def headOf (workspaceId : String) : SyncHead where
  currentHeadCommitId := ((rows.commitsOf workspaceId).getLast?.map (·.commitId)).getD ""
  latestCheckpointCommitId :=
    (((rows.commitsOf workspaceId).filter (·.checkpoint)).getLast?.map (·.commitId)).getD ""

def getHead (workspaceId : String) : Except SyncError SyncHead :=
  (rows.getWorkspace host "GetHead" workspaceId).map fun workspace =>
    rows.headOf workspace.workspaceId

def listCommits (workspaceId : String) : Except SyncError (List Commit) :=
  (rows.getWorkspace host "ListCommits" workspaceId).map fun workspace =>
    rows.commitsOf workspace.workspaceId

/-- The device must be registered in the workspace and have signed, the head must be the
expected one, and the device's sequence number must be new. -/
def publishCommit (commit : Commit) (expectedHeadCommitId : String) (signingKey : SigningKey) :
    Except SyncError Unit × Rows :=
  let operation := "PublishCommit"
  match rows.getWorkspace host operation commit.workspaceId with
  | .error error => (.error error, rows)
  | .ok workspace =>
    match rows.devices.find? fun device =>
        device.deviceId = commit.authorDeviceId ∧ device.workspaceId = workspace.workspaceId with
    | none => (.error (syncRpcError operation .permissionDenied "permission denied"), rows)
    | some device =>
      if device.signingPublicKey ≠ signingKey then
        (.error (syncRpcError operation .failedPrecondition "invalid sync commit signature"), rows)
      else if expectedHeadCommitId ≠ (rows.headOf workspace.workspaceId).currentHeadCommitId then
        (.error (syncRpcError operation .aborted "sync head conflict"), rows)
      else if (rows.commitsOf workspace.workspaceId).any fun earlier =>
          earlier.authorDeviceId = commit.authorDeviceId ∧ commit.deviceSeq ≤ earlier.deviceSeq then
        (.error (syncRpcError operation .alreadyExists "sync device sequence already used"), rows)
      else
        (.ok (), { rows.put { workspace with headVersion := workspace.headVersion + 1 } with
          commits := rows.commits ++ [{ commit with workspaceId := workspace.workspaceId }] })

/-- **The server's answer to a call, and the rows after it.** -/
def perform : (call : ServerCall) → Except SyncError call.Res × Rows
  | .getAccountKeyState => (.ok (rows.accountKey.map (·.1)), rows)
  | .listAccountKeyEnvelopes => (.ok (rows.accountKey.toList.map (·.2)), rows)
  | .createAccountKey envelope => rows.createAccountKey envelope
  | .listWorkspaces => (.ok rows.live, rows)
  | .createWorkspace => rows.createWorkspace host
  | .updateWorkspaceMetadata workspaceId blob version expected =>
    rows.updateWorkspaceMetadata host workspaceId blob version expected
  | .updateWorkspaceKey workspaceId blob version expected =>
    rows.updateWorkspaceKey host workspaceId blob version expected
  | .deleteWorkspace workspaceId => rows.deleteWorkspace host workspaceId
  | .registerDevice workspaceId key => rows.registerDevice host workspaceId key
  | .updateDeviceMetadata workspaceId deviceId blob version expected =>
    rows.updateDeviceMetadata host workspaceId deviceId blob version expected
  | .getHead workspaceId => (rows.getHead host workspaceId, rows)
  | .listCommits workspaceId => (rows.listCommits host workspaceId, rows)
  | .publishCommit commit expected key => rows.publishCommit host commit expected key

end Rows

end Kuku.Account
