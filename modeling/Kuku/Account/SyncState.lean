/-
# Account.SyncState -- the runtime state of a desktop's sync, and its one run

`SyncState` (`sync/mod.rs`) with every operation on it.  Each takes the lock once, so it is
a function of what the lock guards; `set_enabled(true)` is `set_phase` after a write and
takes it twice, which nothing below depends on.  The time stamp of the last update is left
out: nothing reads it.

A run is unfinished from the `begin_sync_run` that handed out its id to the
`finish_sync_run` with that id.  While one is, `begin_sync_run` refuses: in every state
that is reached without a `reset` in between (`exclusive_of_no_reset`).  `reset` forgets
the active run, which goes on (`not_exclusive_after_reset`).
-/
import Kuku.Account.Client

namespace Kuku.Account

open Kuku.Theory Kuku.Sync List Option

inductive SyncErrorCategory where
  | notConfigured
  | loginRequired
  | permissionRequired
  | syncDisabled
  | offline
  | quotaExceeded
  | passphraseFailed
  | server
  | unknown

inductive SyncPhase where
  | notConfigured
  | disabled
  | idle
  | planning
  | packing
  | transferring
  | publishing
  | applying
  | error
  deriving DecidableEq

inductive TransferDirection where
  | upload
  | download
  deriving DecidableEq

inductive SyncTransferDirection where
  | idle
  | upload
  | download

inductive TransferProgressEvent where
  | batchStarted (direction : TransferDirection) (totalObjects attempt maxAttempts : Int)
  | objectCompleted (direction : TransferDirection)
  | objectFailed (direction : TransferDirection) (message : String)
  | retryScheduled (direction : TransferDirection) (nextAttempt maxAttempts nextRetryAtMs : Int)
      (message : String)
  | batchCompleted (direction : TransferDirection)
  | batchFailed (direction : TransferDirection) (message : String)

structure SyncTransferStatus where
  active : Bool := false
  direction : SyncTransferDirection := .idle
  retrying : Bool := false
  uploadTotalObjects : Int := 0
  uploadCompletedObjects : Int := 0
  uploadFailedObjects : Int := 0
  downloadTotalObjects : Int := 0
  downloadCompletedObjects : Int := 0
  downloadFailedObjects : Int := 0
  retryAttempt : Option Int := none
  maxAttempts : Option Int := none
  nextRetryAtMs : Option Int := none
  lastTransferError : Option String := none

structure SyncRuntimeStatus where
  configured : Bool
  enabled : Bool
  phase : SyncPhase
  vaultId : Option String
  rootPath : Option String
  vaultName : Option String
  accountKeyId : Option String
  remoteWorkspaceId : Option String
  workspaceName : Option String
  deviceId : Option String
  deviceName : Option String
  rememberWorkspaceKey : Bool
  lastError : Option String
  lastErrorCategory : Option SyncErrorCategory
  lastSyncedAtMs : Option Int
  pendingUploads : Int
  pendingDownloads : Int
  transfer : SyncTransferStatus
  conflictCount : Int

/-- The ids of runs are `u64`. -/
abbrev RunId := BitVec 64

structure SyncInner where
  status : SyncRuntimeStatus
  activeRunId : Option RunId
  nextRunId : RunId

def SyncRuntimeStatus.unconfigured : SyncRuntimeStatus where
  configured := false
  enabled := false
  phase := .notConfigured
  vaultId := none
  rootPath := none
  vaultName := none
  accountKeyId := none
  remoteWorkspaceId := none
  workspaceName := none
  deviceId := none
  deviceName := none
  rememberWorkspaceKey := true
  lastError := none
  lastErrorCategory := none
  lastSyncedAtMs := none
  pendingUploads := 0
  pendingDownloads := 0
  transfer := {}
  conflictCount := 0

def SyncInner.new : SyncInner where
  status := .unconfigured
  activeRunId := none
  nextRunId := 1

/-- `Display` of an error. -/
def errorText : SyncError → String
  | .crypto message => "sync crypto error: " ++ message
  | .integrity message => "sync integrity error: " ++ message
  | .invalidArgument message => "invalid sync argument: " ++ message
  | .loginRequired => "sync login is required"
  | .notConfigured => "sync is not configured"
  | .offline message => "sync connection error: " ++ message
  | .permissionRequired => "sync account permission is required"
  | .quotaExceeded message => "sync quota exceeded: " ++ message
  | .serialization message => "sync serialization error: " ++ message
  | .server message => "sync server error: " ++ message
  | .storage message => "sync storage error: " ++ message
  | .syncDisabled => "sync is disabled on this server"
  | .transport message => "sync transport error: " ++ message
  | .unsupportedVersion version => "unsupported sync version: " ++ toString version

section

variable (host : Host)

def categoryFromTransportMessage (message : String) : SyncErrorCategory :=
  let contains := Text.contains (host.toLowercase message)
  if contains "sync disabled" then .syncDisabled
  else if contains "resource_exhausted" || contains "quota" then .quotaExceeded
  else if contains "permission_denied" || contains "permission denied" then .permissionRequired
  else if contains "unauthenticated" || contains "unauthorized" || contains "login" then
    .loginRequired
  else if contains "unavailable" || contains "deadline_exceeded" || contains "network" ||
      contains "offline" || contains "connection refused" || contains "error sending request" then
    .offline
  else if contains "internal" || contains "unknown" then .server
  else .unknown

def errorCategory : SyncError → SyncErrorCategory
  | .notConfigured => .notConfigured
  | .loginRequired => .loginRequired
  | .permissionRequired => .permissionRequired
  | .syncDisabled => .syncDisabled
  | .offline _ => .offline
  | .quotaExceeded _ => .quotaExceeded
  | .server _ => .server
  | .crypto message =>
    let contains := Text.contains (host.toLowercase message)
    if contains "passphrase" || contains "recovery phrase" then .passphraseFailed else .unknown
  | .transport message => categoryFromTransportMessage host message
  | _ => .unknown

def vaultNameFromRoot (rootPath : String) : Option String := (host.fileName rootPath).bind nonEmpty
where
  nonEmpty (name : String) : Option String :=
    if Text.trim name = "" then none else some (Text.trim name)

def validateConfig (config : VaultConfig) : Except SyncError Unit :=
  if Text.isBlank config.vaultId then .error (.invalidArgument "vault_id is required")
  else if Text.isBlank config.rootPath then .error (.invalidArgument "root_path is required")
  else .ok ()

def nextRunId (current : RunId) : RunId :=
  let next := current + 1
  if next = 0 then 1 else next

def transferReturnPhase : TransferDirection → SyncPhase
  | .upload => .publishing
  | .download => .applying

def syncTransferDirection : TransferDirection → SyncTransferDirection
  | .upload => .upload
  | .download => .download

/-- One more, saturating at `i64::MAX` and, when the total is known, at the total. -/
def countUp (target total : Int) : Int :=
  let target := min (target + 1) (2 ^ 63 - 1)
  if 0 < total then min target total else target

def incrementCompleted (transfer : SyncTransferStatus) : TransferDirection → SyncTransferStatus
  | .upload => { transfer with
      uploadCompletedObjects :=
        countUp transfer.uploadCompletedObjects transfer.uploadTotalObjects }
  | .download => { transfer with
      downloadCompletedObjects :=
        countUp transfer.downloadCompletedObjects transfer.downloadTotalObjects }

def incrementFailed (transfer : SyncTransferStatus) : TransferDirection → SyncTransferStatus
  | .upload => { transfer with
      uploadFailedObjects := countUp transfer.uploadFailedObjects transfer.uploadTotalObjects }
  | .download => { transfer with
      downloadFailedObjects :=
        countUp transfer.downloadFailedObjects transfer.downloadTotalObjects }

namespace SyncInner

variable (inner : SyncInner)

/-- The status is replaced, and nothing else. -/
def setStatus (status : SyncRuntimeStatus) : SyncInner :=
  { inner with status := status }

def restoreVaultWithStatus (config : VaultConfig) (enabled : Bool) (lastSyncedAtMs : Option Int) :
    Except SyncError SyncRuntimeStatus × SyncInner :=
  match validateConfig config with
  | .error error => (.error error, inner)
  | .ok _ =>
    let status : SyncRuntimeStatus :=
      { configured := true
        enabled
        phase := if enabled then .idle else .disabled
        vaultId := some config.vaultId
        rootPath := some config.rootPath
        vaultName := vaultNameFromRoot host config.rootPath
        accountKeyId := config.accountKeyId
        remoteWorkspaceId := some config.remoteWorkspaceId
        workspaceName := config.workspaceName
        deviceId := some config.deviceId
        deviceName := config.deviceName
        rememberWorkspaceKey := config.rememberWorkspaceKey
        lastError := none
        lastErrorCategory := none
        lastSyncedAtMs
        pendingUploads := 0
        pendingDownloads := 0
        transfer := {}
        conflictCount := 0 }
    (.ok status, inner.setStatus status)

def configureVault (config : VaultConfig) : Except SyncError SyncRuntimeStatus × SyncInner :=
  inner.restoreVaultWithStatus host config false none

def reset : SyncRuntimeStatus × SyncInner :=
  (.unconfigured, { inner with activeRunId := none, status := .unconfigured })

def setPhase (phase : SyncPhase) : Except SyncError SyncRuntimeStatus × SyncInner :=
  if !inner.status.configured then (.error .notConfigured, inner)
  else if !inner.status.enabled && phase ≠ .disabled then
    (.error (.invalidArgument "sync must be enabled before entering an active phase"), inner)
  else
    let status := { inner.status with
      phase
      lastError := none
      lastErrorCategory := none
      transfer := if phase = .transferring then inner.status.transfer else {} }
    (.ok status, inner.setStatus status)

def setEnabled (enabled : Bool) : Except SyncError SyncRuntimeStatus × SyncInner :=
  if !inner.status.configured then (.error .notConfigured, inner)
  else if enabled then (inner.setStatus { inner.status with enabled := true }).setPhase .idle
  else
    let status := { inner.status with
      enabled := false
      phase := .disabled
      lastError := none
      lastErrorCategory := none
      transfer := {} }
    (.ok status, inner.setStatus status)

def beginSyncRun : Except SyncError RunId × SyncInner :=
  if !inner.status.configured then (.error .notConfigured, inner)
  else if !inner.status.enabled then
    (.error (.invalidArgument "sync must be enabled before running sync now"), inner)
  else if inner.activeRunId.isSome then
    (.error (.invalidArgument "sync is already running"), inner)
  else
    (.ok inner.nextRunId, { inner with
      nextRunId := Account.nextRunId inner.nextRunId
      activeRunId := some inner.nextRunId })

def finishSyncRun (runId : RunId) : SyncInner :=
  if inner.activeRunId = some runId then { inner with activeRunId := none } else inner

def completeManualSync (conflictCount now : Int) : Except SyncError SyncRuntimeStatus × SyncInner :=
  if !inner.status.configured then (.error .notConfigured, inner)
  else if !inner.status.enabled then
    (.error (.invalidArgument "sync must be enabled before running sync now"), inner)
  else
    let status := { inner.status with
      phase := .idle
      lastError := none
      lastErrorCategory := none
      lastSyncedAtMs := some now
      pendingUploads := 0
      pendingDownloads := 0
      transfer := {}
      conflictCount }
    (.ok status, inner.setStatus status)

def setPendingCounts (pendingUploads pendingDownloads : Int) :
    Except SyncError SyncRuntimeStatus × SyncInner :=
  if !inner.status.configured then (.error .notConfigured, inner)
  else if inner.status.pendingUploads = pendingUploads ∧
      inner.status.pendingDownloads = pendingDownloads then (.ok inner.status, inner)
  else
    let status := { inner.status with
      pendingUploads := max pendingUploads 0
      pendingDownloads := max pendingDownloads 0 }
    (.ok status, inner.setStatus status)

/-- The errors that a later answer of the server clears. -/
def isRemote : SyncErrorCategory → Bool
  | .loginRequired => true
  | .permissionRequired => true
  | .syncDisabled => true
  | .offline => true
  | .server => true
  | _ => false

def clearRemoteStatusError : Except SyncError (Option SyncRuntimeStatus) × SyncInner :=
  if !inner.status.configured then (.error .notConfigured, inner)
  else if inner.activeRunId.isSome then (.ok none, inner)
  else if !inner.status.lastErrorCategory.any isRemote then (.ok none, inner)
  else
    let status := { inner.status with
      phase := if inner.status.enabled then .idle else .disabled
      lastError := none
      lastErrorCategory := none
      transfer := {} }
    (.ok (some status), inner.setStatus status)

def updateWorkspaceName (workspaceId workspaceName : String) :
    Option SyncRuntimeStatus × SyncInner :=
  if !inner.status.configured then (none, inner)
  else if inner.status.remoteWorkspaceId ≠ some workspaceId then (none, inner)
  else
    let status := { inner.status with workspaceName := some workspaceName }
    (some status, inner.setStatus status)

/-- The status after an event of the transfer. -/
def progress (status : SyncRuntimeStatus) : TransferProgressEvent → SyncRuntimeStatus
  | .batchStarted direction totalObjects attempt maxAttempts => { status with
      phase := .transferring
      lastError := none
      lastErrorCategory := none
      transfer :=
        { active := true
          direction := syncTransferDirection direction
          retryAttempt := some attempt
          maxAttempts := some maxAttempts
          uploadTotalObjects := if direction = .upload then totalObjects else 0
          downloadTotalObjects := if direction = .download then totalObjects else 0 } }
  | .objectCompleted direction => { status with
      transfer := incrementCompleted status.transfer direction }
  | .objectFailed direction message => { status with
      transfer := { incrementFailed status.transfer direction with
        lastTransferError := some message } }
  | .retryScheduled direction nextAttempt maxAttempts nextRetryAtMs message => { status with
      transfer := { status.transfer with
        active := true
        direction := syncTransferDirection direction
        retrying := true
        retryAttempt := some nextAttempt
        maxAttempts := some maxAttempts
        nextRetryAtMs := some nextRetryAtMs
        lastTransferError := some message } }
  | .batchCompleted direction => { status with
      phase := transferReturnPhase direction
      transfer := {}
      lastError := none
      lastErrorCategory := none }
  | .batchFailed _ message => { status with transfer := { lastTransferError := some message } }

def applyTransferProgress (runId : RunId) (event : TransferProgressEvent) :
    Except SyncError (Option SyncRuntimeStatus) × SyncInner :=
  if inner.activeRunId ≠ some runId then (.ok none, inner)
  else if !inner.status.configured then (.error .notConfigured, inner)
  else if !inner.status.enabled then
    (.error (.invalidArgument "sync must be enabled before reporting transfer progress"), inner)
  else
    let status := progress inner.status event
    (.ok (some status), inner.setStatus status)

def setError (error : SyncError) : Except SyncError SyncRuntimeStatus × SyncInner :=
  if !inner.status.configured then (.error .notConfigured, inner)
  else
    let status := { inner.status with
      phase := .error
      lastError := some (errorText error)
      lastErrorCategory := some (errorCategory host error)
      transfer :=
        { lastTransferError :=
            inner.status.transfer.lastTransferError.orElse fun _ => some (errorText error) } }
    (.ok status, inner.setStatus status)

end SyncInner

inductive StateCall where
  | configureVault (config : VaultConfig)
  | restoreVaultWithStatus (config : VaultConfig) (enabled : Bool) (lastSyncedAtMs : Option Int)
  | reset
  | setEnabled (enabled : Bool)
  | beginSyncRun
  | finishSyncRun (runId : RunId)
  | setPhase (phase : SyncPhase)
  | applyTransferProgress (runId : RunId) (event : TransferProgressEvent)
  | completeManualSync (conflictCount now : Int)
  | setPendingCounts (pendingUploads pendingDownloads : Int)
  | setError (error : SyncError)
  | clearRemoteStatusError
  | updateWorkspaceName (workspaceId workspaceName : String)

/-- The state after a call. -/
def SyncInner.after (inner : SyncInner) : StateCall → SyncInner
  | .configureVault config => (inner.configureVault host config).2
  | .restoreVaultWithStatus config enabled lastSyncedAtMs =>
    (inner.restoreVaultWithStatus host config enabled lastSyncedAtMs).2
  | .reset => inner.reset.2
  | .setEnabled enabled => (inner.setEnabled enabled).2
  | .beginSyncRun => inner.beginSyncRun.2
  | .finishSyncRun runId => inner.finishSyncRun runId
  | .setPhase phase => (inner.setPhase phase).2
  | .applyTransferProgress runId event => (inner.applyTransferProgress runId event).2
  | .completeManualSync conflictCount now => (inner.completeManualSync conflictCount now).2
  | .setPendingCounts uploads downloads => (inner.setPendingCounts uploads downloads).2
  | .setError error => (inner.setError host error).2
  | .clearRemoteStatusError => inner.clearRemoteStatusError.2
  | .updateWorkspaceName workspaceId name => (inner.updateWorkspaceName workspaceId name).2

end

/-! ## Runs that are under way -/

/-- The state, and the runs that have begun and not finished. -/
structure RunLog where
  inner : SyncInner
  unfinished : List RunId

namespace RunLog

variable (host : Host)

def next (log : RunLog) (call : StateCall) : Option RunLog :=
  some
    { inner := log.inner.after host call
      unfinished :=
        match call with
        | .beginSyncRun =>
          match log.inner.beginSyncRun.1 with
          | .ok runId => runId :: log.unfinished
          | .error _ => log.unfinished
        | .finishSyncRun runId => log.unfinished.erase runId
        | _ => log.unfinished }

def system : System RunLog StateCall := System.ofStep (· = ⟨.new, []⟩) (next host)

/-- **At most one run**: a run begins only when none is under way, so its id is the id of
no unfinished run. -/
def Exclusive (log : RunLog) : Prop :=
  ∀ runId after, log.inner.beginSyncRun = (.ok runId, after) →
    log.unfinished = [] ∧ runId ∉ log.unfinished

/-- `reset` is called when no run is under way. -/
def resetsIdle (log : RunLog) : StateCall → Prop
  | .reset => log.unfinished = []
  | _ => True

end RunLog

/-! ## The active run is the unfinished one -/

section Active

variable {host : Host} {inner : SyncInner}

theorem beginSyncRun_ok {runId : RunId} {after : SyncInner}
    (begun : inner.beginSyncRun = (.ok runId, after)) :
    inner.activeRunId = none ∧ after.activeRunId = some runId := by
  simp only [SyncInner.beginSyncRun] at begun
  repeat' split at begun
  all_goals cases begun
  rename_i idle
  exact ⟨not_isSome_iff_eq_none.mp idle, rfl⟩

theorem beginSyncRun_error {error : SyncError}
    (refused : inner.beginSyncRun.1 = .error error) : inner.beginSyncRun.2 = inner := by
  simp only [SyncInner.beginSyncRun] at refused ⊢
  repeat' split
  all_goals first | rfl | simp_all

/-- Only the three calls about runs touch the active run. -/
theorem after_activeRunId {call : StateCall} (notReset : call ≠ .reset)
    (notBegin : call ≠ .beginSyncRun) (notFinish : ∀ runId, call ≠ .finishSyncRun runId) :
    (inner.after host call).activeRunId = inner.activeRunId := by
  have kept : ∀ status, (inner.setStatus status).activeRunId = inner.activeRunId := fun _ => rfl
  have phased : ∀ (inner : SyncInner) phase,
      (inner.setPhase phase).2.activeRunId = inner.activeRunId := by
    intro inner phase
    simp only [SyncInner.setPhase]
    repeat' split
    all_goals rfl
  have restored : ∀ config enabled lastSynced,
      (inner.restoreVaultWithStatus host config enabled lastSynced).2.activeRunId =
        inner.activeRunId := by
    intro config enabled lastSynced
    simp only [SyncInner.restoreVaultWithStatus]
    split <;> rfl
  cases call with
  | configureVault config => exact restored config false none
  | restoreVaultWithStatus config enabled lastSynced => exact restored config enabled lastSynced
  | reset => exact absurd rfl notReset
  | setEnabled enabled =>
    simp only [SyncInner.after, SyncInner.setEnabled]
    repeat' split
    all_goals first | rfl | exact phased _ _
  | beginSyncRun => exact absurd rfl notBegin
  | finishSyncRun runId => exact absurd rfl (notFinish runId)
  | setPhase phase => exact phased inner phase
  | applyTransferProgress runId event =>
    simp only [SyncInner.after, SyncInner.applyTransferProgress]
    repeat' split
    all_goals rfl
  | completeManualSync conflictCount now =>
    simp only [SyncInner.after, SyncInner.completeManualSync]
    repeat' split
    all_goals rfl
  | setPendingCounts uploads downloads =>
    simp only [SyncInner.after, SyncInner.setPendingCounts]
    repeat' split
    all_goals rfl
  | setError error =>
    simp only [SyncInner.after, SyncInner.setError]
    repeat' split
    all_goals rfl
  | clearRemoteStatusError =>
    simp only [SyncInner.after, SyncInner.clearRemoteStatusError]
    repeat' split
    all_goals rfl
  | updateWorkspaceName workspaceId name =>
    simp only [SyncInner.after, SyncInner.updateWorkspaceName]
    repeat' split
    all_goals rfl

end Active

namespace RunLog

variable {host : Host}

/-- One call keeps the unfinished run the active one. -/
theorem next_unfinished {log after : RunLog} {call : StateCall}
    (isActive : log.unfinished = log.inner.activeRunId.toList) (isOk : log.resetsIdle call)
    (steps : log.next host call = some after) :
    after.unfinished = after.inner.activeRunId.toList := by
  cases steps
  cases call with
  | reset =>
    exact isOk
  | beginSyncRun =>
    cases answered : log.inner.beginSyncRun.1 with
    | ok runId =>
      have begun : log.inner.beginSyncRun = (.ok runId, log.inner.beginSyncRun.2) :=
        Prod.ext answered rfl
      obtain ⟨idle, active⟩ := beginSyncRun_ok begun
      have isAfter : (log.inner.after host .beginSyncRun).activeRunId = some runId := active
      simp only [isAfter, isActive, idle, Option.toList]
    | error error =>
      have same : log.inner.after host .beginSyncRun = log.inner := beginSyncRun_error answered
      simp only [same, isActive]
  | finishSyncRun runId =>
    simp only [SyncInner.after, SyncInner.finishSyncRun, isActive]
    split
    · rename_i isIt
      simp [isIt]
    · rename_i differ
      apply erase_of_not_mem
      simpa using fun active => differ active
  | _ =>
    refine isActive.trans (congrArg Option.toList ?_)
    exact (after_activeRunId (by simp) (by simp) (by simp)).symm

/-- **At most one sync run** in every state of every sequence of calls that resets the
state only when no run is under way. -/
theorem exclusive_of_no_reset {log : RunLog}
    (reached : (system host).ReachableBy resetsIdle log) : log.Exclusive := by
  have isActive : log.unfinished = log.inner.activeRunId.toList := by
    induction reached with
    | start starts =>
      cases starts
      rfl
    | step _ isOk steps isActive => exact next_unfinished isActive isOk steps
  intro runId after begun
  have idle := (beginSyncRun_ok begun).1
  have none : log.unfinished = [] := by
    rw [isActive, idle]
    rfl
  refine ⟨none, ?_⟩
  rw [none]
  exact not_mem_nil

/-! ## A run that is reset under way -/

def sampleConfig : VaultConfig where
  vaultId := "v"
  rootPath := "/v"
  remoteWorkspaceId := "w"
  deviceId := "d"
  accountKeyId := none
  workspaceName := none
  deviceName := none
  rememberWorkspaceKey := true
  passphrase := none

def configureAndBegin : List StateCall :=
  [.configureVault sampleConfig, .setEnabled true, .beginSyncRun]

theorem exclusive_while_running :
    ∃ log, (system default).ReachableBy resetsIdle log ∧ log.unfinished = [1] ∧
      log.Exclusive := by
  have ran : (System.run (next default) ⟨.new, []⟩ configureAndBegin).map
      (fun log => log.unfinished) = some [1] := by
    decide
  obtain ⟨log, reached, isUnfinished⟩ := map_eq_some_iff.mp ran
  have reachable : (system default).ReachableBy resetsIdle log := by
    refine System.ReachableBy.run (.start rfl) ?_ reached
    intro call member s
    simp only [configureAndBegin, mem_cons, not_mem_nil, or_false] at member
    rcases member with rfl | rfl | rfl <;> trivial
  exact ⟨log, reachable, isUnfinished, exclusive_of_no_reset reachable⟩

/-- A run is under way, the vault is disconnected and configured again: a second run begins. -/
theorem not_exclusive_after_reset : ∃ log, (system default).Reachable log ∧ ¬ log.Exclusive := by
  have ran : (System.run (next default) ⟨.new, []⟩ (configureAndBegin ++
      [.reset, .configureVault sampleConfig, .setEnabled true])).map
        (fun log => (log.unfinished, log.inner.beginSyncRun.1.toOption)) =
      some ([1], some 2) := by
    decide
  obtain ⟨log, reached, observed⟩ := map_eq_some_iff.mp ran
  obtain ⟨isUnfinished, begins⟩ := Prod.mk.inj observed
  refine ⟨log, System.reachable_of_run (.start rfl) reached, ?_⟩
  intro exclusive
  cases answered : log.inner.beginSyncRun.1 with
  | error error =>
    rw [answered] at begins
    cases begins
  | ok runId =>
    have begun : log.inner.beginSyncRun = (.ok runId, log.inner.beginSyncRun.2) :=
      Prod.ext answered rfl
    rw [(exclusive runId _ begun).1] at isUnfinished
    cases isUnfinished

end RunLog

end Kuku.Account
