/-
# Account.Client -- the stores of a desktop, and the calls its commands make

A desktop keeps its secrets in the keychain (`keys.rs`), each under a name made of an
account key id or a vault id, the vault rows in the sync databases, `.kuku/sync.json` in
each vault, and the runtime status in `SyncState`.  A command is a program over the calls
of this module: to the server, to the keychain, to the database, to the file and to the
status.  Each call is atomic.  A call to the server may be rejected, or be executed and
have its answer lost; a call to a store may fail; the status is memory and never fails,
and is gone after a crash.
-/
import Kuku.Account.Server
import Kuku.Theory.Program

namespace Kuku.Account

open Kuku.Theory Kuku.Sync

structure Keychain where
  accountRootKeys : String → Option SymmetricKey
  accountRecoveryPhrases : String → Option String
  workspaceKeys : String → Option SymmetricKey
  passphrases : String → Option String
  deviceSigningKeys : String → Option SigningKey

/-- `SyncVaultConfig`. -/
structure VaultConfig extends SyncVaultConfig where
  accountKeyId : Option String
  workspaceName : Option String
  deviceName : Option String
  rememberWorkspaceKey : Bool
  passphrase : Option String

/-- `SyncVaultConfigFile`, without what it only displays. -/
structure ConfigFile where
  vaultId : String
  accountKeyId : Option String
  remoteWorkspaceId : String
  workspaceName : Option String
  deviceId : String
  deviceName : Option String
  enabled : Bool
  rememberWorkspaceKey : Bool

/-- The part of `SyncRuntimeStatus` that commands read: `none` while no vault is configured. -/
structure Status where
  config : Option VaultConfig
  enabled : Bool

/-- One desktop: the rows are kept by vault id, the files by vault root. -/
structure Client where
  keychain : Keychain
  vaults : String → Option SyncVaultRecord
  configFiles : String → Option ConfigFile
  status : Status

def Client.fresh : Client where
  keychain :=
    { accountRootKeys := fun _ => none
      accountRecoveryPhrases := fun _ => none
      workspaceKeys := fun _ => none
      passphrases := fun _ => none
      deviceSigningKeys := fun _ => none }
  vaults _ := none
  configFiles _ := none
  status := ⟨none, false⟩

/-- The account's rows and its desktops. -/
structure World where
  rows : Rows
  clients : Nat → Client

def World.initial : World where
  rows := .empty
  clients _ := .fresh

/-- A call to a store of the desktop. -/
inductive StoreCall where
  | readAccountRootKey (accountKeyId : String)
  | rememberAccountRootKey (accountKeyId : String) (key : SymmetricKey)
  | rememberAccountRecoveryPhrase (accountKeyId phrase : String)
  | readRememberedWorkspaceKey (vaultId : String)
  | rememberWorkspaceKey (vaultId : String) (key : SymmetricKey)
  | forgetWorkspaceKey (vaultId : String)
  | rememberPassphrase (vaultId passphrase : String)
  | forgetPassphrase (vaultId : String)
  | readDeviceSigningKey (vaultId : String)
  | rememberDeviceSigningKey (vaultId : String) (key : SigningKey)
  | forgetDeviceSigningKey (vaultId : String)
  | getVault (vaultId : String)
  | upsertVault (vault : SyncVaultRecord)
  | updateVaultAfterPull (vaultId commitId : String)
  | updateVaultAfterPublish (vaultId commitId : String) (nextDeviceSeq : Int)
  | deleteVault (vaultId : String)
  | readSyncConfig (rootPath : String)
  | writeSyncConfig (rootPath : String) (file : ConfigFile)
  | deleteSyncConfig (rootPath : String)
  | getStatus
  | setStatus (status : Status)

abbrev StoreCall.Res : StoreCall → Type
  | readAccountRootKey _ => Option SymmetricKey
  | readRememberedWorkspaceKey _ => Option SymmetricKey
  | readDeviceSigningKey _ => Option SigningKey
  | getVault _ => Option SyncVaultRecord
  | readSyncConfig _ => Option ConfigFile
  | getStatus => Status
  | _ => Unit

namespace Client

def setAccountRootKeys (client : Client) (f : String → Option SymmetricKey) : Client :=
  { client with keychain := { client.keychain with accountRootKeys := f } }

def setWorkspaceKeys (client : Client) (f : String → Option SymmetricKey) : Client :=
  { client with keychain := { client.keychain with workspaceKeys := f } }

def setPassphrases (client : Client) (f : String → Option String) : Client :=
  { client with keychain := { client.keychain with passphrases := f } }

def setDeviceSigningKeys (client : Client) (f : String → Option SigningKey) : Client :=
  { client with keychain := { client.keychain with deviceSigningKeys := f } }

def setVaults (client : Client) (f : String → Option SyncVaultRecord) : Client :=
  { client with vaults := f }

/-- **What a store answers, and the stores after it.** -/
def perform (client : Client) : (call : StoreCall) → call.Res × Client
  | .readAccountRootKey id => (client.keychain.accountRootKeys id, client)
  | .rememberAccountRootKey id key =>
    ((), client.setAccountRootKeys (Function.update client.keychain.accountRootKeys id (some key)))
  | .rememberAccountRecoveryPhrase id phrase =>
    ((), { client with
      keychain :=
        { client.keychain with
          accountRecoveryPhrases :=
            Function.update client.keychain.accountRecoveryPhrases id (some phrase) } })
  | .readRememberedWorkspaceKey vault => (client.keychain.workspaceKeys vault, client)
  | .rememberWorkspaceKey vault key =>
    ((), client.setWorkspaceKeys (Function.update client.keychain.workspaceKeys vault (some key)))
  | .forgetWorkspaceKey vault =>
    ((), client.setWorkspaceKeys (Function.update client.keychain.workspaceKeys vault none))
  | .rememberPassphrase vault phrase =>
    ((), client.setPassphrases (Function.update client.keychain.passphrases vault (some phrase)))
  | .forgetPassphrase vault =>
    ((), client.setPassphrases (Function.update client.keychain.passphrases vault none))
  | .readDeviceSigningKey vault => (client.keychain.deviceSigningKeys vault, client)
  | .rememberDeviceSigningKey vault key =>
    ((), client.setDeviceSigningKeys
      (Function.update client.keychain.deviceSigningKeys vault (some key)))
  | .forgetDeviceSigningKey vault =>
    ((), client.setDeviceSigningKeys (Function.update client.keychain.deviceSigningKeys vault none))
  | .getVault vault => (client.vaults vault, client)
  | .upsertVault record =>
    ((), client.setVaults (Function.update client.vaults record.vaultId (some record)))
  | .updateVaultAfterPull vault commitId =>
    ((), client.setVaults (Function.update client.vaults vault
      (Sync.updateVaultAfterPull (client.vaults vault) commitId)))
  | .updateVaultAfterPublish vault commitId seq =>
    ((), client.setVaults (Function.update client.vaults vault
      (Sync.updateVaultAfterPublish (client.vaults vault) commitId seq)))
  | .deleteVault vault => ((), client.setVaults (Function.update client.vaults vault none))
  | .readSyncConfig root => (client.configFiles root, client)
  | .writeSyncConfig root file =>
    ((), { client with configFiles := Function.update client.configFiles root (some file) })
  | .deleteSyncConfig root =>
    ((), { client with configFiles := Function.update client.configFiles root none })
  | .getStatus => (client.status, client)
  | .setStatus status => ((), { client with status := status })

end Client

/-- A call of a command. -/
inductive Call where
  | server (call : ServerCall)
  | store (call : StoreCall)

abbrev Call.Res : Call → Type
  | .server call => call.Res
  | .store call => call.Res

/-- The programs of this desktop. -/
abbrev Program (α : Type) := Prog Call.Res SyncError α

/-- How a call goes. -/
inductive Delivery where
  | answered
  | rejected (error : SyncError)
  | lost (error : SyncError)

namespace World

variable (host : Host)

/-- The call of a device is executed. -/
def perform (device : Nat) (world : World) : (call : Call) → Except SyncError call.Res × World
  | .server call =>
    let answer := world.rows.perform host call
    (answer.1, { world with rows := answer.2 })
  | .store call =>
    let answer := (world.clients device).perform call
    (.ok answer.1,
      { world with clients := Function.update world.clients device answer.2 })

/-- The runtime status is the only store that cannot fail. -/
def infallible : StoreCall → Bool
  | .getStatus => true
  | .setStatus _ => true
  | _ => false

/-- A call that is answered, rejected, or executed with its answer lost. -/
def exec (device : Nat) (call : Call) (how : Delivery) (world : World) :
    Except SyncError call.Res × World :=
  match how, call with
  | .answered, call => world.perform host device call
  | .rejected error, .server _ => (.error error, world)
  | .lost error, .server call => (.error error, (world.perform host device (.server call)).2)
  | .rejected error, .store call =>
    if infallible call then world.perform host device (.store call) else (.error error, world)
  | .lost error, .store call =>
    if infallible call then world.perform host device (.store call) else (.error error, world)

/-- The status is gone. -/
def crash (device : Nat) (world : World) : World :=
  { world with
    clients := Function.update world.clients device
      { world.clients device with status := ⟨none, false⟩ } }

/-- A program of a device with nothing going wrong and nobody else acting. -/
def runAlone (device : Nat) {α : Type} (program : Program α) (world : World) :
    Except SyncError α × World :=
  program.run (fun call world => world.perform host device call) world

end World

def server (call : ServerCall) : Program call.Res := Prog.perform (Call.server call)

def store (call : StoreCall) : Program call.Res := Prog.perform (Call.store call)

def fail {α : Type} (error : SyncError) : Program α := .throw error

end Kuku.Account
