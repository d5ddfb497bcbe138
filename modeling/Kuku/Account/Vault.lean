/-
# Account.Vault -- binding a vault to a workspace, and running its sync

The commands of `commands.rs` that write the binding of a vault, in the order in which
they write it: the row, the keychain, `.kuku/sync.json` and the runtime status when a
vault is configured; the keychain, the file, the row and the status when it is
disconnected.  A run takes its binding from the status and its key from the keychain.

Of the pull and the push, this model has what they do to the row and what they publish:
which commits are applied is decided by `selectReplayCommits` and by the key that opens
them; whether there is anything to publish, and under which id, is an input.
-/
import Kuku.Account.Workspaces
import Kuku.Sync.Replay

namespace Kuku.Account

open Kuku.Theory Kuku.Sync Text

/-- What a run cannot see here: the passphrase it is given, and for each of its two pushes
the id of the commit, if the plan is not empty. -/
structure RunInput where
  passphrase : Option String
  firstPlan : Option String
  secondPlan : Option String

/-! ## The four stores of a binding -/

def validateConfigForCommand (config : VaultConfig) : Except SyncError Unit :=
  if isBlank config.vaultId then .error (.invalidArgument "vault_id is required")
  else if isBlank config.rootPath then .error (.invalidArgument "root_path is required")
  else .ok ()

def configFileFromRuntime (config : VaultConfig) (enabled : Bool) : Except SyncError ConfigFile :=
  if isBlank config.vaultId then .error (.invalidArgument "vault_id is required")
  else if isBlank config.remoteWorkspaceId then
    .error (.invalidArgument "remote_workspace_id is required")
  else if isBlank config.deviceId then .error (.invalidArgument "device_id is required")
  else .ok
    { vaultId := trim config.vaultId
      accountKeyId := config.accountKeyId.bind nonEmptyTrimmed
      remoteWorkspaceId := trim config.remoteWorkspaceId
      workspaceName := config.workspaceName.bind nonEmptyTrimmed
      deviceId := trim config.deviceId
      deviceName := config.deviceName.bind nonEmptyTrimmed
      enabled
      rememberWorkspaceKey := config.rememberWorkspaceKey }

def runtimeConfigFromFile (rootPath : String) (file : ConfigFile) : VaultConfig :=
  { file with rootPath, passphrase := none }

/-- `open_sync_db_for_vault`, which checks the vault id it makes a file name of. -/
def openSyncDbForVault (vaultId : String) : Except SyncError Unit :=
  if vaultId = "" || !vaultId.toList.all fun c =>
      ('a' ≤ c && c ≤ 'z') || ('A' ≤ c && c ≤ 'Z') || ('0' ≤ c && c ≤ '9') || c = '-' || c = '_' then
    .error (.invalidArgument "invalid vault_id")
  else .ok ()

/-- `persist_configured_vault`, in the database of the vault. -/
def persistVault (config : VaultConfig) (enabled : Bool) : Program Unit := do
  Prog.ofExcept (openSyncDbForVault config.vaultId)
  let existing : Option SyncVaultRecord ← store (.getVault config.vaultId)
  store (.upsertVault (persistConfiguredVault existing config.toSyncVaultConfig enabled))

def writeConfig (config : VaultConfig) (enabled : Bool) : Program Unit := do
  let file ← Prog.ofExcept (configFileFromRuntime config enabled)
  store (.writeSyncConfig config.rootPath file)

def persistLocalKeys (config : VaultConfig) (prepared : PreparedSyncConfig) : Program Unit := do
  rememberAccount prepared.account
  if config.rememberWorkspaceKey then do
    let _ : Unit ← store (.rememberWorkspaceKey config.vaultId prepared.workspaceKey)
    match prepared.account.recoveryPhrase with
    | some phrase => store (.rememberPassphrase config.vaultId phrase)
    | none => pure ()
  else do
    let _ : Unit ← store (.forgetWorkspaceKey config.vaultId)
    store (.forgetPassphrase config.vaultId)
  store (.rememberDeviceSigningKey config.vaultId prepared.deviceSigningKey)

/-- The runtime status after a vault is configured or restored. -/
def configured (config : VaultConfig) (enabled : Bool) : Status :=
  ⟨some { config with passphrase := none }, enabled⟩

section

variable (host : Host)

/-- The config a vault is bound with. -/
def preparedConfig (config : VaultConfig) (prepared : PreparedSyncConfig) : VaultConfig :=
  { config with
    remoteWorkspaceId := prepared.workspaceId
    deviceId := prepared.deviceId
    accountKeyId := some prepared.account.accountKeyId
    workspaceName := some prepared.workspaceName
    deviceName := some prepared.deviceName }

def probeSyncConfig (entropy : Entropy) (config : VaultConfig) : Program PreparedSyncConfig := do
  Prog.ofExcept (validateConfigForCommand config)
  if trim config.remoteWorkspaceId = "" then prepareNewWorkspace host entropy config
  else do
    Prog.ofExcept (openSyncDbForVault config.vaultId)
    let localVault : Option SyncVaultRecord ← store (.getVault config.vaultId)
    prepareExistingWorkspace host entropy config localVault

def commitSyncConfigProbe (config : VaultConfig) (prepared : PreparedSyncConfig) :
    Program Unit := do
  persistVault config false
  persistLocalKeys config prepared
  writeConfig config false

def syncConfigureVault (entropy : Entropy) (config : VaultConfig) : Program Unit := do
  let prepared ← probeSyncConfig host entropy config
  let config := preparedConfig config prepared
  commitSyncConfigProbe config prepared
  store (.setStatus (configured config false))

def clearCurrentWorkspaceBinding (config : VaultConfig) : Program Unit := do
  match nonEmptyTrimmed config.vaultId with
  | none => fail .notConfigured
  | some vaultId =>
    let _ : Unit ← store (.forgetWorkspaceKey vaultId)
    let _ : Unit ← store (.forgetPassphrase vaultId)
    let _ : Unit ← store (.forgetDeviceSigningKey vaultId)
    match nonEmptyTrimmed config.rootPath with
    | some rootPath => store (.deleteSyncConfig rootPath)
    | none => pure ()
    Prog.ofExcept (openSyncDbForVault vaultId)
    let _ : Unit ← store (.deleteVault vaultId)
    store (.setStatus ⟨none, false⟩)

def syncDisconnectVault : Program Unit := do
  let status : Status ← store .getStatus
  match status.config with
  | none => pure ()
  | some config => clearCurrentWorkspaceBinding config

def restoreVaultConfigForRoot (rootPath : String) : Program Unit := do
  let file : Option ConfigFile ← store (.readSyncConfig rootPath)
  match file with
  | none => store (.setStatus ⟨none, false⟩)
  | some file =>
    let config := runtimeConfigFromFile rootPath file
    persistVault config file.enabled
    store (.setStatus (configured config file.enabled))

def requiredStatusValue (value field : String) : Except SyncError String :=
  match nonEmptyTrimmed value with
  | some value => .ok value
  | none => .error (.invalidArgument (field ++ " is required before running sync"))

def configFromStatus (config : VaultConfig) : Except SyncError VaultConfig := do
  let vaultId ← requiredStatusValue config.vaultId "vault_id"
  let rootPath ← requiredStatusValue config.rootPath "root_path"
  let workspaceId ← requiredStatusValue config.remoteWorkspaceId "remote_workspace_id"
  let deviceId ← requiredStatusValue config.deviceId "device_id"
  pure
    { config with
      vaultId
      rootPath
      remoteWorkspaceId := workspaceId
      deviceId
      passphrase := none }

def persistRuntimeStatus (status : Status) : Program Unit :=
  match status.config with
  | none => pure ()
  | some config => do
    let config ← Prog.ofExcept (configFromStatus config)
    persistVault config status.enabled
    writeConfig config status.enabled

def syncSetEnabled (enabled : Bool) : Program Unit := do
  let status : Status ← store .getStatus
  match status.config with
  | none => fail .notConfigured
  | some config =>
    let _ : Unit ← store (.setStatus ⟨some config, enabled⟩)
    persistRuntimeStatus ⟨some config, enabled⟩

/-! ## Workspaces, from the settings page -/

def currentWorkspaceId (status : Status) : Option String := status.config.map (·.remoteWorkspaceId)

def syncListWorkspaces (passphrase : Option String) : Program Unit := do
  let status : Status ← store .getStatus
  let _ ← listAccountWorkspaces host (currentWorkspaceId status) passphrase
  pure ()

def syncCreateWorkspace (entropy : Entropy) (request : CreateWorkspaceRequest) : Program Unit := do
  let status : Status ← store .getStatus
  let _ ← createAccountWorkspace host entropy request (currentWorkspaceId status)
  pure ()

/-- A rename of the current workspace is shown in the status and kept in the file. -/
def syncRenameWorkspace (request : RenameWorkspaceRequest) : Program Unit := do
  let status : Status ← store .getStatus
  let summary ← renameAccountWorkspace host request (currentWorkspaceId status)
  let status : Status ← store .getStatus
  match status.config with
  | none => pure ()
  | some config =>
    if config.remoteWorkspaceId = summary.workspaceId then do
      let status : Status := ⟨some { config with workspaceName := some summary.name },
        status.enabled⟩
      let _ : Unit ← store (.setStatus status)
      persistRuntimeStatus status
    else pure ()

def syncDeleteWorkspace (workspaceId : String) : Program Unit := do
  let workspaceId ← Prog.ofExcept (normalizedWorkspaceId workspaceId)
  let status : Status ← store .getStatus
  deleteAccountWorkspace workspaceId
  match status.config with
  | none => pure ()
  | some config =>
    if config.remoteWorkspaceId = workspaceId then clearCurrentWorkspaceBinding config
    else pure ()

/-! ## A run -/

/-- The key of a run: the remembered one, or the one the account root key unwraps. -/
def workspaceKeyForRun (vaultId workspaceId : String) (accountKeyId : Option String)
    (rememberWorkspaceKey : Bool) (passphrase : Option String) : Program SymmetricKey := do
  let remembered : Option SymmetricKey ← store (.readRememberedWorkspaceKey vaultId)
  match remembered with
  | some key => pure key
  | none =>
    let fromRoot : Option SymmetricKey ← (match accountKeyId with
      | none => pure none
      | some accountKeyId => do
        let root : Option SymmetricKey ← store (.readAccountRootKey accountKeyId)
        match root with
        | none => pure none
        | some accountRootKey => do
          let found ← (workspaceById workspaceId).catching
          match found with
          | .error _ => pure none
          | .ok workspace => do
            let key ← Prog.ofExcept
              (workspaceKeyFromAccount ⟨accountKeyId, accountRootKey, none⟩ workspace)
            if rememberWorkspaceKey then do
              let _ : Unit ← store (.rememberWorkspaceKey vaultId key)
              pure (some key)
            else pure (some key))
    match fromRoot with
    | some key => pure key
    | none =>
      match passphrase.bind nonEmptyTrimmed with
      | none => fail (.crypto "passphrase is required to unlock workspace key")
      | some phrase =>
        match accountKeyId with
        | some accountKeyId => do
          let accountRootKey ← unlockAccountRootKey host accountKeyId phrase
          let account : PreparedAccountKey :=
            ⟨accountKeyId, accountRootKey, some (normalizeRecoveryPhrase host phrase)⟩
          rememberAccount account
          let workspace ← workspaceById workspaceId
          let key ← Prog.ofExcept (workspaceKeyFromAccount account workspace)
          if rememberWorkspaceKey then do
            let _ : Unit ← store (.rememberWorkspaceKey vaultId key)
            let _ : Unit ← store (.rememberPassphrase vaultId phrase)
            pure key
          else pure key
        -- no client of this version stores a passphrase envelope of its own
        | none => fail (.invalidArgument "no passphrase key envelope found")

/-- Each commit of the replay is opened with the key, applied, and becomes the head. -/
def applyCommits (vaultId : String) (workspaceKey : SymmetricKey) : List Commit → Program Unit
  | [] => pure ()
  | commit :: rest => do
    if commit.workspaceKey = workspaceKey then do
      let _ : Unit ← store (.updateVaultAfterPull vaultId commit.commitId)
      applyCommits vaultId workspaceKey rest
    else fail (.crypto "blob decrypt failed")

def pullRemoteChanges (input : PipelineInput) (workspaceKey : SymmetricKey) : Program Unit := do
  let head : SyncHead ← server (.getHead input.workspaceId)
  let existing : Option SyncVaultRecord ← store (.getVault input.vaultId)
  let vault := ensurePullVaultRecord existing input head
  let _ : Unit ← store (.upsertVault vault)
  if head.currentHeadCommitId = "" then pure ()
  else do
    let commits : List Commit ← server (.listCommits input.workspaceId)
    let replay ← Prog.ofExcept
      (selectReplayCommits Commit.commitId vault.localHeadCommitId head commits)
    applyCommits input.vaultId workspaceKey replay

def ensureLocalHeadCanPush (vault : SyncVaultRecord) (remoteHead : String) :
    Except SyncError Unit :=
  if remoteHead ≠ "" ∧ vault.localHeadCommitId.getD "" ≠ remoteHead then
    .error (.transport ("remote head " ++ remoteHead ++
      " is not present locally; pull is required before push"))
  else .ok ()

def ensureMergeParentCanPush (vault : SyncVaultRecord) (remoteHead localParent : String) :
    Except SyncError Unit :=
  if remoteHead = "" then .error (.invalidArgument "merge commit requires a remote head")
  else if remoteHead = localParent then
    .error (.invalidArgument "merge commit requires a distinct local parent")
  else ensureLocalHeadCanPush vault remoteHead

/-- The end of both pushes: what is planned is published under the row's sequence number. -/
def publishPlan (vault : SyncVaultRecord) (input : PipelineInput) (head : SyncHead)
    (workspaceKey : SymmetricKey) (signingKey : SigningKey) (checkpoint : Bool)
    (plan : Option String) : Program Unit :=
  match plan with
  | none => pure ()
  | some commitId => do
    let _ : Unit ← server (.publishCommit
      { workspaceId := input.workspaceId
        commitId
        checkpoint
        authorDeviceId := input.deviceId
        deviceSeq := vault.nextDeviceSeq
        workspaceKey }
      head.currentHeadCommitId signingKey)
    store (.updateVaultAfterPublish input.vaultId commitId (vault.nextDeviceSeq + 1))

def pushLocalChanges (input : PipelineInput) (workspaceKey : SymmetricKey)
    (signingKey : SigningKey) (plan : Option String) : Program Unit := do
  let head : SyncHead ← server (.getHead input.workspaceId)
  let existing : Option SyncVaultRecord ← store (.getVault input.vaultId)
  let vault := ensureVaultRecord existing input head
  let _ : Unit ← store (.upsertVault vault)
  Prog.ofExcept (ensureLocalHeadCanPush vault head.currentHeadCommitId)
  publishPlan vault input head workspaceKey signingKey (head.currentHeadCommitId = "") plan

def pushMergeCommit (input : PipelineInput) (workspaceKey : SymmetricKey)
    (signingKey : SigningKey) (localParent : String) (plan : Option String) : Program Unit := do
  let head : SyncHead ← server (.getHead input.workspaceId)
  let existing : Option SyncVaultRecord ← store (.getVault input.vaultId)
  let vault := ensureMergeVaultRecord existing input head
  let _ : Unit ← store (.upsertVault vault)
  Prog.ofExcept (ensureMergeParentCanPush vault head.currentHeadCommitId localParent)
  publishPlan vault input head workspaceKey signingKey false plan

/-- `run_sync_once`: pull and push, and after a head conflict once more. -/
def runSyncOnce (run : RunInput) : Program Status := do
  let status : Status ← store .getStatus
  match status.config with
  | none => fail .notConfigured
  | some config =>
    if !status.enabled then
      fail (.invalidArgument "sync must be enabled before running sync now")
    else do
      let vaultId ← Prog.ofExcept (requiredStatusValue config.vaultId "vault_id")
      let workspaceId ←
        Prog.ofExcept (requiredStatusValue config.remoteWorkspaceId "remote_workspace_id")
      let deviceId ← Prog.ofExcept (requiredStatusValue config.deviceId "device_id")
      let vaultRoot ← Prog.ofExcept (requiredStatusValue config.rootPath "root_path")
      let input : PipelineInput := ⟨vaultId, vaultRoot, workspaceId, deviceId⟩
      Prog.ofExcept (openSyncDbForVault vaultId)
      let key ← workspaceKeyForRun host vaultId workspaceId config.accountKeyId
        config.rememberWorkspaceKey run.passphrase
      let signing : Option SigningKey ← store (.readDeviceSigningKey vaultId)
      match signing with
      | none => fail (.crypto "device signing key is missing; configure sync again")
      | some signingKey =>
        pullRemoteChanges input key
        let vault : Option SyncVaultRecord ← store (.getVault vaultId)
        let localParent := (vault.bind (·.localHeadCommitId)).getD ""
        let pushed ← (pushLocalChanges input key signingKey run.firstPlan).catching
        match pushed with
        | .ok _ => pure status
        | .error error =>
          if isHeadConflict error then do
            pullRemoteChanges input key
            if localParent = "" then pushLocalChanges input key signingKey run.secondPlan
            else pushMergeCommit input key signingKey localParent run.secondPlan
            pure status
          else fail error

def errorMayIndicateMissingCurrentWorkspace : SyncError → Bool
  | .permissionRequired => true
  | .invalidArgument message => contains message "workspace was not found"
  | _ => false

/-- A run that failed because its workspace is gone clears the binding. -/
def clearBindingIfCurrentWorkspaceMissing (error : SyncError) : Program Unit := do
  let status : Status ← store .getStatus
  match status.config with
  | none => pure ()
  | some config =>
    if errorMayIndicateMissingCurrentWorkspace error then
      match nonEmptyTrimmed config.remoteWorkspaceId with
      | none => pure ()
      | some workspaceId => do
        let workspaces : List Workspace ← server .listWorkspaces
        if workspaces.any fun workspace => workspace.workspaceId = workspaceId then pure ()
        else clearCurrentWorkspaceBinding config
    else pure ()

def syncRunOnce (run : RunInput) : Program Unit := do
  let result ← (runSyncOnce host run).catching
  match result with
  | .ok status => persistRuntimeStatus status
  | .error error =>
    let _ ← (clearBindingIfCurrentWorkspaceMissing error).catching
    fail error

/-! ## The desktops of an account -/

inductive Command where
  | listWorkspaces (passphrase : Option String)
  | createWorkspace (entropy : Entropy) (request : CreateWorkspaceRequest)
  | renameWorkspace (request : RenameWorkspaceRequest)
  | deleteWorkspace (workspaceId : String)
  | configureVault (entropy : Entropy) (config : VaultConfig)
  | disconnectVault
  | setEnabled (enabled : Bool)
  | openVault (rootPath : String)
  | runOnce (run : RunInput)

def Command.program : Command → Program Unit
  | .listWorkspaces passphrase => syncListWorkspaces host passphrase
  | .createWorkspace entropy request => syncCreateWorkspace host entropy request
  | .renameWorkspace request => syncRenameWorkspace host request
  | .deleteWorkspace workspaceId => syncDeleteWorkspace workspaceId
  | .configureVault entropy config => syncConfigureVault host entropy config
  | .disconnectVault => syncDisconnectVault
  | .setEnabled enabled => syncSetEnabled enabled
  | .openVault rootPath => restoreVaultConfigForRoot rootPath
  | .runOnce run => syncRunOnce host run

/-- Any number of desktops, each running one command at a time. -/
def desktops : Machine World Nat Command Delivery Empty Call.Res SyncError Unit where
  program _ command := command.program host
  exec := World.exec host
  crash := World.crash
  env event := nomatch event

end

end Kuku.Account
