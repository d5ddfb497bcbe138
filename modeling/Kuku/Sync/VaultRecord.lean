/-
# Sync.VaultRecord -- the row that binds a vault to a workspace

Every vault has a sync database of its own (`sync_db_path`), so its `sync_vaults`
table holds at most the row of that vault, and the functions that read and write it
are functions of an optional row:

* `persistConfiguredVault` (`commands.rs`) binds the vault to a configuration;
* `ensurePullVaultRecord` (`applier.rs`), `ensureVaultRecord` and
  `ensureMergeVaultRecord` (`checkpoint.rs`) refresh the row at the start of a pull,
  a push and a merge push, and create it when it is missing;
* `updateVaultAfterPublish` and `updateVaultAfterPull` (`db.rs`) move its heads;
* `deleteVault` (`db.rs`) removes it.

The two time stamps of the row are left out: nothing reads them back.
-/
import Kuku.Theory.Text

namespace Kuku.Sync

structure SyncVaultRecord where
  vaultId : String
  rootPath : String
  remoteWorkspaceId : String
  remoteHeadCommitId : Option String
  localHeadCommitId : Option String
  deviceId : String
  nextDeviceSeq : Int
  enabled : Bool

/-- The part of `SyncVaultConfig` the row is made of. -/
structure SyncVaultConfig where
  vaultId : String
  rootPath : String
  remoteWorkspaceId : String
  deviceId : String

structure PipelineInput where
  vaultId : String
  vaultRoot : String
  workspaceId : String
  deviceId : String

structure SyncHead where
  currentHeadCommitId : String
  latestCheckpointCommitId : String

def emptyToNone (value : String) : Option String :=
  if value = "" then none else some value

def persistConfiguredVault (existing : Option SyncVaultRecord) (config : SyncVaultConfig)
    (enabled : Bool) : SyncVaultRecord :=
  match existing with
  | some vault =>
    { vault with
      rootPath := config.rootPath
      remoteWorkspaceId := config.remoteWorkspaceId
      deviceId := config.deviceId
      enabled }
  | none =>
    { vaultId := config.vaultId
      rootPath := config.rootPath
      remoteWorkspaceId := config.remoteWorkspaceId
      remoteHeadCommitId := none
      localHeadCommitId := none
      deviceId := config.deviceId
      nextDeviceSeq := 1
      enabled }

/-- The common part of the three `ensure_*` functions: a missing row is created with
the given local head, and the row takes the input's binding. -/
def ensureRecord (existing : Option SyncVaultRecord) (input : PipelineInput) (head : SyncHead)
    (newLocalHead : Option String) : SyncVaultRecord :=
  let vault := existing.getD
    { vaultId := input.vaultId
      rootPath := input.vaultRoot
      remoteWorkspaceId := input.workspaceId
      remoteHeadCommitId := emptyToNone head.currentHeadCommitId
      localHeadCommitId := newLocalHead
      deviceId := input.deviceId
      nextDeviceSeq := 1
      enabled := true }
  { vault with
    rootPath := input.vaultRoot
    remoteWorkspaceId := input.workspaceId
    deviceId := input.deviceId
    enabled := true
    nextDeviceSeq := if vault.nextDeviceSeq ≤ 0 then 1 else vault.nextDeviceSeq }

/-- A pull starts a new row at no local head: it has applied nothing yet. -/
def ensurePullVaultRecord (existing : Option SyncVaultRecord) (input : PipelineInput)
    (head : SyncHead) : SyncVaultRecord :=
  { ensureRecord existing input head none with
    remoteHeadCommitId := emptyToNone head.currentHeadCommitId }

def ensureVaultRecord (existing : Option SyncVaultRecord) (input : PipelineInput)
    (head : SyncHead) : SyncVaultRecord :=
  ensureRecord existing input head (emptyToNone head.currentHeadCommitId)

def ensureMergeVaultRecord (existing : Option SyncVaultRecord) (input : PipelineInput)
    (head : SyncHead) : SyncVaultRecord :=
  { ensureRecord existing input head (emptyToNone head.currentHeadCommitId) with
    remoteHeadCommitId := emptyToNone head.currentHeadCommitId }

def updateVaultAfterPublish (existing : Option SyncVaultRecord) (commitId : String)
    (nextDeviceSeq : Int) : Option SyncVaultRecord :=
  existing.map fun vault =>
    { vault with
      remoteHeadCommitId := some commitId
      localHeadCommitId := some commitId
      nextDeviceSeq }

def updateVaultAfterPull (existing : Option SyncVaultRecord) (commitId : String) :
    Option SyncVaultRecord :=
  existing.map fun vault =>
    { vault with
      remoteHeadCommitId := some commitId
      localHeadCommitId := some commitId }

/-! ## What the row carries on -/

section Ensure

variable (existing : Option SyncVaultRecord) (input : PipelineInput) (head : SyncHead)
  (newLocalHead : Option String)

/-- A new row starts at one; an existing row keeps its positive sequence number. -/
theorem ensureRecord_nextDeviceSeq
    (positive : ∀ vault, existing = some vault → 0 < vault.nextDeviceSeq) :
    (ensureRecord existing input head newLocalHead).nextDeviceSeq =
      (existing.map (·.nextDeviceSeq)).getD 1 := by
  cases existing with
  | none => simp [ensureRecord]
  | some vault =>
    have isPositive := positive vault rfl
    have notReset : ¬ vault.nextDeviceSeq ≤ 0 := by omega
    simp [ensureRecord, notReset]

end Ensure

theorem persistConfiguredVault_nextDeviceSeq (existing : Option SyncVaultRecord)
    (config : SyncVaultConfig) (enabled : Bool) :
    (persistConfiguredVault existing config enabled).nextDeviceSeq =
      (existing.map (·.nextDeviceSeq)).getD 1 := by
  cases existing <;> rfl

end Kuku.Sync
