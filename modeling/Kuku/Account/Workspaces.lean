/-
# Account.Workspaces -- unlocking the account, and its workspaces

The set-up half of `commands.rs`, call by call: unlocking or creating the account key,
creating, listing, renaming and deleting workspaces, and registering devices.  What the
code draws at random is the `Entropy` a command is started with.
-/
import Kuku.Account.Client

namespace Kuku.Account

open Kuku.Theory Kuku.Sync Text

def accountRecoveryEnvelopeId : String := "recovery:v1"
def accountKeyVersion : Int := 1
def workspaceMetadataVersion : Int := 1
def workspaceKeyVersion : Int := 1
def deviceMetadataVersion : Int := 1
def i64Max : Int := 2 ^ 63 - 1

/-- The random draws of one command. -/
structure Entropy where
  accountKeyId : BitVec 128
  accountRootKey : SymmetricKey
  workspaceKey : SymmetricKey
  signingKey : SigningKey

structure PreparedAccountKey where
  accountKeyId : String
  accountRootKey : SymmetricKey
  recoveryPhrase : Option String

structure PreparedSyncConfig where
  account : PreparedAccountKey
  workspaceId : String
  workspaceName : String
  workspaceKey : SymmetricKey
  deviceId : String
  deviceName : String
  deviceSigningKey : SigningKey

structure WorkspaceSummary where
  workspaceId : String
  name : String
  current : Bool
  headVersion : Int
  metadataVersion : Int
  workspaceKeyVersion : Int

structure CreateWorkspaceRequest where
  name : Option String
  passphrase : Option String

structure RenameWorkspaceRequest where
  workspaceId : String
  name : String
  expectedMetadataVersion : Int
  passphrase : Option String

/-- Trimmed, and `none` when nothing is left. -/
def nonEmptyTrimmed (value : String) : Option String :=
  let value := trim value
  if value = "" then none else some value

section

variable (host : Host)

def normalizeRecoveryPhrase (phrase : String) : String :=
  join ' ' ((words phrase).map host.toLowercase)

def hexDigit (n : Nat) : Char :=
  if n < 10 then Char.ofNat (48 + n) else Char.ofNat (87 + n)

def randomAccountKeyId (bytes : BitVec 128) : String :=
  "account_" ++ String.ofList
    ((List.range 32).map fun i => hexDigit (bytes.toNat / 16 ^ (31 - i) % 16))

def requiredPassphrase (passphrase : Option String) : Except SyncError String :=
  match passphrase.bind nonEmptyTrimmed with
  | some phrase => .ok phrase
  | none => .error (.crypto "passphrase is required to configure sync")

def requireRecoveryPhrase (phrase : String) : Except SyncError String :=
  let normalized := normalizeRecoveryPhrase host phrase
  if normalized = "" then .error (.invalidArgument "recovery phrase must not be empty")
  else .ok normalized

def wrapAccountRootKey (accountKeyId : String) (accountRootKey : SymmetricKey) (phrase : String) :
    Except SyncError AccountKeyEnvelope :=
  (requireRecoveryPhrase host phrase).map fun normalized =>
    { accountKeyId
      envelopeId := accountRecoveryEnvelopeId
      keyVersion := accountKeyVersion
      phrase := normalized
      accountRootKey }

def unwrapAccountRootKey (envelope : AccountKeyEnvelope) (phrase : String) :
    Except SyncError SymmetricKey := do
  let normalized ← requireRecoveryPhrase host phrase
  if normalized = envelope.phrase then .ok envelope.accountRootKey
  else .error (.crypto "account recovery phrase unwrap failed")

def unlockAccountRootKey (accountKeyId phrase : String) : Program SymmetricKey := do
  let envelopes : List AccountKeyEnvelope ← server .listAccountKeyEnvelopes
  match envelopes.find? fun envelope => envelope.accountKeyId = accountKeyId with
  | none => fail (.crypto "account recovery envelope is missing")
  | some envelope => Prog.ofExcept (unwrapAccountRootKey host envelope phrase)

/-- The id the config names, or a random one. -/
def newAccountKeyId (accountKeyId : Option String) (entropy : Entropy) : String :=
  (accountKeyId.bind nonEmptyTrimmed).getD (randomAccountKeyId entropy.accountKeyId)

/-- `prepare_account_key`: the account key is unlocked, or created when there is none. -/
def prepareAccountKey (entropy : Entropy) (accountKeyId passphrase : Option String) :
    Program PreparedAccountKey := do
  let existing : Option String ← server .getAccountKeyState
  match existing with
  | some accountKeyId =>
    let remembered : Option SymmetricKey ← store (.readAccountRootKey accountKeyId)
    match remembered with
    | some accountRootKey => pure ⟨accountKeyId, accountRootKey, none⟩
    | none =>
      let phrase ← Prog.ofExcept (requiredPassphrase passphrase)
      let accountRootKey ← unlockAccountRootKey host accountKeyId phrase
      pure ⟨accountKeyId, accountRootKey, some (normalizeRecoveryPhrase host phrase)⟩
  | none =>
    let phrase ← Prog.ofExcept (requiredPassphrase passphrase)
    let normalized := normalizeRecoveryPhrase host phrase
    let accountKeyId := newAccountKeyId accountKeyId entropy
    let envelope ←
      Prog.ofExcept (wrapAccountRootKey host accountKeyId entropy.accountRootKey normalized)
    let _ : Unit ← server (.createAccountKey envelope)
    pure ⟨accountKeyId, entropy.accountRootKey, some normalized⟩

def rememberAccount (account : PreparedAccountKey) : Program Unit := do
  let _ : Unit ← store (.rememberAccountRootKey account.accountKeyId account.accountRootKey)
  match account.recoveryPhrase with
  | some phrase =>
    let _ : Unit ← store (.rememberAccountRecoveryPhrase account.accountKeyId phrase)
    pure ()
  | none => pure ()

/-- `unlock_existing_account_key`: no account key is no error. -/
def unlockExistingAccountKey (recoveryPhrase : Option String) :
    Program (Option PreparedAccountKey) := do
  let existing : Option String ← server .getAccountKeyState
  match existing with
  | none => pure none
  | some accountKeyId =>
    let remembered : Option SymmetricKey ← store (.readAccountRootKey accountKeyId)
    match remembered with
    | some accountRootKey => pure (some ⟨accountKeyId, accountRootKey, none⟩)
    | none =>
      match recoveryPhrase.bind nonEmptyTrimmed with
      | none => fail (.crypto "recovery phrase is required to unlock account sync state")
      | some phrase =>
        let accountRootKey ← unlockAccountRootKey host accountKeyId phrase
        let account : PreparedAccountKey :=
          ⟨accountKeyId, accountRootKey, some (normalizeRecoveryPhrase host phrase)⟩
        rememberAccount account
        pure (some account)

/-! ## Workspace rows -/

def workspaceAad (account : PreparedAccountKey) (workspaceId : String) (version : Int) :
    WorkspaceAad :=
  ⟨account.accountKeyId, workspaceId, version⟩

def encryptWorkspaceMetadata (account : PreparedAccountKey) (workspaceId : String) (version : Int)
    (name : String) : Blob WorkspaceAad String :=
  ⟨account.accountRootKey, workspaceAad account workspaceId version, name⟩

def encryptWorkspaceKeyForAccount (account : PreparedAccountKey) (workspaceId : String)
    (version : Int) (key : SymmetricKey) : Blob WorkspaceAad SymmetricKey :=
  ⟨account.accountRootKey, workspaceAad account workspaceId version, key⟩

def workspaceKeyFromAccount (account : PreparedAccountKey) (workspace : Workspace) :
    Except SyncError SymmetricKey :=
  match workspace.encryptedWorkspaceKey with
  | none => .error (.crypto "workspace account key envelope is missing")
  | some blob =>
    if workspace.workspaceKeyVersion ≤ 0 then
      .error (.crypto "workspace account key envelope is missing")
    else blob.decrypt account.accountRootKey
      (workspaceAad account workspace.workspaceId workspace.workspaceKeyVersion)

def workspaceDisplayNameFromMetadata (account : PreparedAccountKey) (workspace : Workspace) :
    Except SyncError String :=
  match workspace.encryptedMetadata with
  | none => .error (.crypto "workspace metadata is missing")
  | some blob =>
    if workspace.metadataVersion ≤ 0 then .error (.crypto "workspace metadata is missing")
    else blob.decrypt account.accountRootKey
      (workspaceAad account workspace.workspaceId workspace.metadataVersion)

def workspaceSummaryFromMetadata (account : PreparedAccountKey)
    (currentWorkspaceId : Option String) (workspace : Workspace) :
    Except SyncError WorkspaceSummary := do
  let name ← workspaceDisplayNameFromMetadata account workspace
  let _ ← workspaceKeyFromAccount account workspace
  pure
    { workspace with name, current := currentWorkspaceId = some workspace.workspaceId }

def workspaceById (workspaceId : String) : Program Workspace := do
  let workspaces : List Workspace ← server .listWorkspaces
  match workspaces.find? fun workspace => workspace.workspaceId = workspaceId with
  | some workspace => pure workspace
  | none => fail (.invalidArgument "workspace was not found for this account")

/-- `put_account_workspace_metadata`: the name and then the key, each for the first time. -/
def putAccountWorkspaceMetadata (account : PreparedAccountKey) (workspaceId workspaceName : String)
    (workspaceKey : SymmetricKey) : Program Unit := do
  let _ : Workspace ← server (.updateWorkspaceMetadata workspaceId
    (encryptWorkspaceMetadata account workspaceId workspaceMetadataVersion workspaceName)
    workspaceMetadataVersion 0)
  let _ : Workspace ← server (.updateWorkspaceKey workspaceId
    (encryptWorkspaceKeyForAccount account workspaceId workspaceKeyVersion workspaceKey)
    workspaceKeyVersion 0)
  pure ()

/-- Decimal digits with an optional sign, below `2 ^ 64` (`str::parse::<usize>`). -/
def parseUsize (text : List Char) : Option Nat :=
  let digits := if text.head? = some '+' then text.tail else text
  if digits.isEmpty || !digits.all Char.isDigit then none
  else
    let value := digits.foldl (fun n c => 10 * n + (c.toNat - 48)) 0
    if value < 2 ^ 64 then some value else none

def workspaceIndex (name : String) : Option Nat :=
  ("Workspace ".toList.isPrefixOf? (trim name).toList).bind parseUsize

def nextWorkspaceDisplayName (account : PreparedAccountKey) (workspaces : List Workspace) :
    String :=
  let nextIndex := workspaces.foldl (fun next workspace =>
    match workspaceDisplayNameFromMetadata account workspace with
    | .error _ => next
    | .ok name =>
      match workspaceIndex name with
      | none => next
      | some index => max next (min (index + 1) (2 ^ 64 - 1))) 1
  "Workspace " ++ toString nextIndex

def normalizedWorkspaceId (workspaceId : String) : Except SyncError String :=
  let workspaceId := trim workspaceId
  if workspaceId = "" then .error (.invalidArgument "workspace id is required")
  else .ok workspaceId

def normalizedWorkspaceName (name : String) : Except SyncError String :=
  let name := trim name
  if name = "" then .error (.invalidArgument "workspace name is required")
  else if 120 < name.length then .error (.invalidArgument "workspace name is too long")
  else .ok name

def listAccountWorkspaces (currentWorkspaceId recoveryPhrase : Option String) :
    Program (List WorkspaceSummary) := do
  let account ← unlockExistingAccountKey host recoveryPhrase
  match account with
  | none => pure []
  | some account =>
    let workspaces : List Workspace ← server .listWorkspaces
    Prog.ofExcept (workspaces.mapM (workspaceSummaryFromMetadata account currentWorkspaceId))

def createAccountWorkspace (entropy : Entropy) (request : CreateWorkspaceRequest)
    (currentWorkspaceId : Option String) : Program WorkspaceSummary := do
  let account ← prepareAccountKey host entropy none request.passphrase
  rememberAccount account
  let existing : List Workspace ← server .listWorkspaces
  let workspaceName ← Prog.ofExcept (match request.name with
    | some name => normalizedWorkspaceName name
    | none => .ok (nextWorkspaceDisplayName account existing))
  let workspace : Workspace ← server .createWorkspace
  putAccountWorkspaceMetadata account workspace.workspaceId workspaceName entropy.workspaceKey
  let workspace ← workspaceById workspace.workspaceId
  Prog.ofExcept (workspaceSummaryFromMetadata account currentWorkspaceId workspace)

def renameAccountWorkspace (request : RenameWorkspaceRequest)
    (currentWorkspaceId : Option String) : Program WorkspaceSummary := do
  let workspaceId ← Prog.ofExcept (normalizedWorkspaceId request.workspaceId)
  let workspaceName ← Prog.ofExcept (normalizedWorkspaceName request.name)
  let account ← unlockExistingAccountKey host request.passphrase
  match account with
  | none => fail .notConfigured
  | some account =>
    if request.expectedMetadataVersion = i64Max then
      fail (.invalidArgument "workspace metadata version overflow")
    else do
      let version := request.expectedMetadataVersion + 1
      let workspace : Workspace ← server (.updateWorkspaceMetadata workspaceId
        (encryptWorkspaceMetadata account workspaceId version workspaceName)
        version request.expectedMetadataVersion)
      Prog.ofExcept (workspaceSummaryFromMetadata account currentWorkspaceId workspace)

def deleteAccountWorkspace (workspaceId : String) : Program Unit :=
  server (.deleteWorkspace workspaceId)

/-! ## Devices -/

def encryptDeviceMetadata (account : PreparedAccountKey) (workspaceId deviceId : String)
    (version : Int) (name : String) : Blob DeviceAad String :=
  ⟨account.accountRootKey, ⟨workspaceAad account workspaceId version, deviceId⟩, name⟩

def registerDeviceWithName (account : PreparedAccountKey) (workspaceId : String)
    (signingKey : SigningKey) (deviceName : String) : Program Device := do
  let device : Device ← server (.registerDevice workspaceId signingKey)
  server (.updateDeviceMetadata workspaceId device.deviceId
    (encryptDeviceMetadata account workspaceId device.deviceId deviceMetadataVersion deviceName)
    deviceMetadataVersion 0)

def workspaceDisplayName (config : VaultConfig) : String :=
  ((config.workspaceName.bind nonEmptyTrimmed).orElse fun _ =>
    (host.fileName config.rootPath).bind nonEmptyTrimmed).getD "Workspace"

def deviceDisplayName (config : VaultConfig) : String :=
  (((config.deviceName.bind nonEmptyTrimmed).orElse fun _ => host.computerName).bind
    nonEmptyTrimmed).getD "This device"

def reusableDeviceIdForWorkspace (workspaceId configDeviceId : String)
    (localVault : Option SyncVaultRecord) : Option String :=
  match localVault with
  | some vault =>
    if vault.remoteWorkspaceId = workspaceId then nonEmptyTrimmed vault.deviceId else none
  | none => nonEmptyTrimmed configDeviceId

def prepareNewWorkspace (entropy : Entropy) (config : VaultConfig) :
    Program PreparedSyncConfig := do
  let account ← prepareAccountKey host entropy config.accountKeyId config.passphrase
  let workspaceName := workspaceDisplayName host config
  let deviceName := deviceDisplayName host config
  let workspace : Workspace ← server .createWorkspace
  putAccountWorkspaceMetadata account workspace.workspaceId workspaceName entropy.workspaceKey
  let device ← registerDeviceWithName account workspace.workspaceId entropy.signingKey deviceName
  pure
    { account
      workspaceId := workspace.workspaceId
      workspaceName
      workspaceKey := entropy.workspaceKey
      deviceId := device.deviceId
      deviceName
      deviceSigningKey := entropy.signingKey }

/-- `prepare_existing_workspace`: a missing name is no obstacle, a missing key is. -/
def prepareExistingWorkspace (entropy : Entropy) (config : VaultConfig)
    (localVault : Option SyncVaultRecord) : Program PreparedSyncConfig := do
  let account ← prepareAccountKey host entropy config.accountKeyId config.passphrase
  let workspaceId := trim config.remoteWorkspaceId
  let workspace ← workspaceById workspaceId
  let workspaceName := match workspaceDisplayNameFromMetadata account workspace with
    | .ok name => name
    | .error _ => workspaceDisplayName host config
  let deviceName := deviceDisplayName host config
  let workspaceKey ← Prog.ofExcept (workspaceKeyFromAccount account workspace)
  let signingKey : Option SigningKey ← store (.readDeviceSigningKey config.vaultId)
  let prepared (deviceId : String) (signingKey : SigningKey) : PreparedSyncConfig :=
    { account
      workspaceId
      workspaceName
      workspaceKey
      deviceId
      deviceName
      deviceSigningKey := signingKey }
  match reusableDeviceIdForWorkspace workspaceId config.deviceId localVault, signingKey with
  | some deviceId, some signingKey => pure (prepared deviceId signingKey)
  | _, _ =>
    let device ← registerDeviceWithName account workspaceId entropy.signingKey deviceName
    pure (prepared device.deviceId entropy.signingKey)

end

end Kuku.Account
