/-
# Account.SetupRecovery -- what an interrupted set-up leaves behind

`World.Unblocked` is what a desktop with the recovery phrase can do to the account as it
stands, with nothing going wrong: list the workspaces, configure each of them, create,
rename and delete workspaces, register devices.

In every state of every run it holds exactly when no live workspace is half set up
(`unblocked_iff_complete`): `list_account_workspaces` reads the name and the key of every
row and gives up on the first that has none, where `next_workspace_display_name` and
`prepare_existing_workspace` step over such a row.
-/
import Kuku.Account.RunSafety
import Kuku.Theory.Except

namespace Kuku.Account

open Kuku.Theory Kuku.Sync List Text

/-- The phrase opens the account, or can found it. -/
def Rows.Opens (host : Host) (rows : Rows) (phrase : String) : Prop :=
  ∃ trimmed, nonEmptyTrimmed phrase = some trimmed ∧
    match rows.accountKey with
    | some (_, envelope) =>
      unwrapAccountRootKey host envelope trimmed = .ok envelope.accountRootKey
    | none => ∃ normalized,
        requireRecoveryPhrase host (normalizeRecoveryPhrase host trimmed) = .ok normalized

/-- The program succeeds, alone and with nothing going wrong. -/
def World.Succeeds (host : Host) (device : Nat) {α : Type} (world : World) (program : Program α)
    (good : α → World → Prop) : Prop :=
  ∃ value world', world.runAlone host device program = (.ok value, world') ∧ good value world'

/-- What a desktop with the recovery phrase can do. -/
structure World.UnblockedFor (host : Host) (world : World) (device : Nat) (phrase : String) :
    Prop where
  /-- Every workspace whose name and key are stored is listed, and can be configured. -/
  lists : ∀ current, world.Succeeds host device
    (listAccountWorkspaces host current (some phrase)) fun summaries _ =>
      (∀ workspace ∈ world.rows.live, workspace.encryptedMetadata.isSome →
        workspace.encryptedWorkspaceKey.isSome →
        ∃ summary ∈ summaries, summary.workspaceId = workspace.workspaceId) ∧
      ∀ summary ∈ summaries, ∀ entropy config localVault,
        trim config.remoteWorkspaceId = summary.workspaceId →
        config.passphrase = some phrase →
        world.Succeeds host device (prepareExistingWorkspace host entropy config localVault)
          fun prepared _ => prepared.workspaceId = summary.workspaceId ∧
            world.rows.KeyOf summary.workspaceId prepared.workspaceKey
  creates : ∀ entropy request current, request.passphrase = some phrase →
    (∀ name, request.name = some name → ∃ valid, normalizedWorkspaceName name = .ok valid) →
    world.Succeeds host device (createAccountWorkspace host entropy request current) fun _ _ => True
  binds : ∀ entropy config, config.passphrase = some phrase →
    world.Succeeds host device (prepareNewWorkspace host entropy config) fun _ _ => True
  /-- A workspace is renamed at the version it has. -/
  renames : ∀ request current, request.passphrase = some phrase →
    (∃ valid, normalizedWorkspaceName request.name = .ok valid) →
    (∃ workspace ∈ world.rows.live, trim request.workspaceId = workspace.workspaceId ∧
      request.expectedMetadataVersion = workspace.metadataVersion) →
    request.expectedMetadataVersion ≠ i64Max →
    world.Succeeds host device (renameAccountWorkspace host request current) fun _ _ => True
  deletes : ∀ workspace ∈ world.rows.live,
    world.Succeeds host device (deleteAccountWorkspace workspace.workspaceId) fun _ _ => True
  registers : ∀ workspace ∈ world.rows.live, ∀ account signingKey name,
    world.Succeeds host device
      (registerDeviceWithName account workspace.workspaceId signingKey name) fun _ _ => True

def World.Unblocked (host : Host) (world : World) : Prop :=
  ∀ device phrase, world.rows.Opens host phrase → world.UnblockedFor host device phrase

/-- No live workspace was left between `create_workspace` and `update_workspace_key`. -/
def Rows.Complete (rows : Rows) : Prop :=
  ∀ workspace ∈ rows.live,
    workspace.encryptedMetadata.isSome ∧ workspace.encryptedWorkspaceKey.isSome

instance (rows : Rows) : Decidable rows.Complete :=
  inferInstanceAs (Decidable (∀ workspace ∈ rows.live, _))

/-! ## Programs alone -/

section Alone

variable {host : Host} {device : Nat} {world : World} {α β : Type} {good : β → World → Prop}

theorem World.Succeeds.mono {p : Program β} {good' : β → World → Prop}
    (succeeds : world.Succeeds host device p good)
    (weaker : ∀ value world', good value world' → good' value world') :
    world.Succeeds host device p good' := by
  obtain ⟨value, world', ran, isGood⟩ := succeeds
  exact ⟨value, world', ran, weaker value world' isGood⟩

theorem World.Succeeds.returns {value : β} (isGood : good value world) :
    world.Succeeds host device (pure value) good :=
  ⟨value, world, rfl, isGood⟩

theorem World.Succeeds.ofExcept {result : Except SyncError β} {value : β}
    (isOk : result = .ok value) (isGood : good value world) :
    world.Succeeds host device (Prog.ofExcept result) good :=
  ⟨value, world, Prog.run_ofExcept_ok _ _ isOk, isGood⟩

theorem World.Succeeds.andThen {p : Program α} {f : α → Program β} {middle : α → World → Prop}
    (first : world.Succeeds host device p middle)
    (second : ∀ value world', middle value world' → world'.Succeeds host device (f value) good) :
    world.Succeeds host device (p >>= f) good := by
  obtain ⟨value, world', ran, isMiddle⟩ := first
  obtain ⟨result, world'', ran', isGood⟩ := second value world' isMiddle
  refine ⟨result, world'', ?_, isGood⟩
  rw [World.runAlone, Prog.run_bind_ok _ f ran]
  exact ran'

theorem World.Succeeds.exceptThen {result : Except SyncError α} {f : α → Program β} {value : α}
    (isOk : result = .ok value) (second : world.Succeeds host device (f value) good) :
    world.Succeeds host device (Prog.ofExcept result >>= f) good := by
  obtain ⟨result', world', ran, isGood⟩ := second
  refine ⟨result', world', ?_, isGood⟩
  rw [World.runAlone, Prog.run_bind_ok _ f (Prog.run_ofExcept_ok _ _ isOk)]
  exact ran

theorem World.Succeeds.exceptOkThen {result : Except SyncError α} {f : α → Program β}
    (isOk : ∃ value, result = .ok value)
    (second : ∀ value, result = .ok value → world.Succeeds host device (f value) good) :
    world.Succeeds host device (Prog.ofExcept result >>= f) good :=
  isOk.elim fun value is => .exceptThen is (second value is)

variable {call : ServerCall} {value : call.Res}

theorem World.Succeeds.server {f : call.Res → Program β} {rows : Rows}
    (answered : world.rows.perform host call = (.ok value, rows))
    (second : (world.setRows rows).Succeeds host device (f value) good) :
    world.Succeeds host device (Account.server call >>= f) good := by
  have ran : world.runAlone host device (Account.server call) =
      (.ok value, world.setRows rows) := by
    refine Prog.run_perform _ ?_
    simp [World.perform, answered, World.setRows]
  obtain ⟨result, world', ran', isGood⟩ := second
  refine ⟨result, world', ?_, isGood⟩
  rw [World.runAlone, Prog.run_bind_ok _ f ran]
  exact ran'

/-- The last call of a program. -/
theorem World.Succeeds.ends (answered : (world.rows.perform host call).1 = .ok value) :
    world.Succeeds host device (Account.server call) fun _ _ => True := by
  refine ⟨value, world.setRows (world.rows.perform host call).2, Prog.run_perform _ ?_, trivial⟩
  exact Prod.ext answered rfl

/-- A call to the server that only reads. -/
theorem World.Succeeds.asks {f : call.Res → Program β}
    (answered : world.rows.perform host call = (.ok value, world.rows))
    (second : world.Succeeds host device (f value) good) :
    world.Succeeds host device (Account.server call >>= f) good :=
  .server answered second

theorem World.Succeeds.store {call : StoreCall} {f : call.Res → Program β}
    (second : (world.setClient device ((world.clients device).perform call).2).Succeeds host device
      (f ((world.clients device).perform call).1) good) :
    world.Succeeds host device (Account.store call >>= f) good := by
  have ran : world.runAlone host device (Account.store call) =
      (.ok ((world.clients device).perform call).1,
        world.setClient device ((world.clients device).perform call).2) :=
    Prog.run_perform _ rfl
  obtain ⟨result, world', ran', isGood⟩ := second
  refine ⟨result, world', ?_, isGood⟩
  rw [World.runAlone, Prog.run_bind_ok _ f ran]
  exact ran'

theorem World.Succeeds.read {call : StoreCall} {f : call.Res → Program β}
    (reads : ∀ client : Client, (client.perform call).2 = client)
    (second : world.Succeeds host device (f ((world.clients device).perform call).1) good) :
    world.Succeeds host device (Account.store call >>= f) good := by
  refine .store ?_
  rw [reads, World.setClient_self]
  exact second

end Alone

/-! ## The account is unlocked -/

section Unlock

variable {host : Host} {named bound : Prop} {device : Nat} {world : World} {phrase : String}

variable {envelope : AccountKeyEnvelope}

theorem unlockAccountRootKey_succeeds {accountKeyId trimmed : String}
    (inv : world.Inv host named bound)
    (account : world.rows.accountKey = some (accountKeyId, envelope))
    (opens : unwrapAccountRootKey host envelope trimmed = .ok envelope.accountRootKey) :
    world.Succeeds host device (unlockAccountRootKey host accountKeyId trimmed)
      fun root world' => root = envelope.accountRootKey ∧ world' = world := by
  have isId := (inv.rows.account accountKeyId envelope account).1
  have answered : world.rows.perform host .listAccountKeyEnvelopes = (.ok [envelope], world.rows) := by
    simp [Rows.perform, account]
  refine .asks answered ?_
  simp only [find?_cons, isId, decide_true]
  exact .ofExcept opens ⟨rfl, rfl⟩

/-- The account root key is remembered, and nothing else changes. -/
theorem rememberAccount_succeeds (account : PreparedAccountKey) :
    world.Succeeds host device (rememberAccount account)
      fun _ world' => world'.rows = world.rows := by
  refine .store ?_
  cases account.recoveryPhrase with
  | none => exact .returns rfl
  | some phrase =>
    refine .store ?_
    exact .returns rfl

theorem unlockExistingAccountKey_succeeds {accountKeyId : String} (inv : world.Inv host named bound)
    (account : world.rows.accountKey = some (accountKeyId, envelope))
    (opens : world.rows.Opens host phrase) :
    world.Succeeds host device (unlockExistingAccountKey host (some phrase))
      fun unlocked world' => world'.rows = world.rows ∧ ∃ account, unlocked = some account ∧
        world.rows.Unlocks account.accountKeyId account.accountRootKey := by
  obtain ⟨trimmed, isTrimmed, opened⟩ := opens
  rw [account] at opened
  have answered : world.rows.perform host .getAccountKeyState =
      (.ok (some accountKeyId), world.rows) := by
    simp [Rows.perform, account]
  refine .asks answered ?_
  refine .read (fun _ => rfl) ?_
  cases remembered : ((world.clients device).perform (.readAccountRootKey accountKeyId)).1 with
  | some root =>
    exact .returns ⟨rfl, _, rfl, (inv.clients device).root remembered⟩
  | none =>
    simp only [Option.bind_some, isTrimmed]
    refine .andThen (unlockAccountRootKey_succeeds inv account opened) ?_
    rintro _ _ ⟨rfl, rfl⟩
    refine .andThen (rememberAccount_succeeds _) ?_
    intro _ world' sameRows
    exact .returns ⟨sameRows, _, rfl, envelope, account, rfl⟩

theorem requiredPassphrase_of_trimmed {trimmed : String}
    (isTrimmed : nonEmptyTrimmed phrase = some trimmed) :
    requiredPassphrase (some phrase) = .ok trimmed := by
  simp [requiredPassphrase, isTrimmed]

theorem newAccountKeyId_ne_empty (accountKeyId : Option String) (entropy : Entropy) :
    newAccountKeyId accountKeyId entropy ≠ "" := by
  simp only [newAccountKeyId]
  cases given : accountKeyId.bind nonEmptyTrimmed with
  | none =>
    intro isEmpty
    have noChars := congrArg String.toList isEmpty
    simp [randomAccountKeyId] at noChars
  | some trimmed =>
    obtain ⟨value, _, isSome⟩ := Option.bind_eq_some_iff.mp given
    exact (nonEmptyTrimmed_some isSome).2

theorem createAccountKey_first {rows : Rows} (absent : rows.accountKey = none)
    (isTrim : trim envelope.accountKeyId = envelope.accountKeyId)
    (notEmpty : envelope.accountKeyId ≠ "") :
    rows.perform host (.createAccountKey envelope) =
      (.ok (), { rows with
        accountKey := some (envelope.accountKeyId,
          { envelope with envelopeId := trim envelope.envelopeId }) }) := by
  simp [Rows.perform, Rows.createAccountKey, isTrim, notEmpty, absent]

/-- An account that is there stays as it is; otherwise it is founded. -/
theorem prepareAccountKey_succeeds {entropy : Entropy} {accountKeyId : Option String}
    (inv : world.Inv host named bound) (opens : world.rows.Opens host phrase) :
    world.Succeeds host device (prepareAccountKey host entropy accountKeyId (some phrase))
      fun account world' => (world.rows.accountKey.isSome → world'.rows = world.rows) ∧
        world'.rows.Unlocks account.accountKeyId account.accountRootKey := by
  obtain ⟨trimmed, isTrimmed, opened⟩ := opens
  cases account : world.rows.accountKey with
  | some stored =>
    obtain ⟨id, envelope⟩ := stored
    rw [account] at opened
    have answered : world.rows.perform host .getAccountKeyState = (.ok (some id), world.rows) := by
      simp [Rows.perform, account]
    refine .asks answered ?_
    refine .read (fun _ => rfl) ?_
    cases remembered : ((world.clients device).perform (.readAccountRootKey id)).1 with
    | some root => exact .returns ⟨fun _ => rfl, (inv.clients device).root remembered⟩
    | none =>
      refine .exceptThen (requiredPassphrase_of_trimmed isTrimmed) ?_
      refine .andThen (unlockAccountRootKey_succeeds inv account opened) ?_
      rintro _ _ ⟨rfl, rfl⟩
      exact .returns ⟨fun _ => rfl, envelope, account, rfl⟩
  | none =>
    rw [account] at opened
    obtain ⟨normalized, isNormalized⟩ := opened
    have answered : world.rows.perform host .getAccountKeyState = (.ok none, world.rows) := by
      simp [Rows.perform, account]
    refine .asks answered ?_
    refine .exceptThen (requiredPassphrase_of_trimmed isTrimmed) ?_
    have wrapped : wrapAccountRootKey host (newAccountKeyId accountKeyId entropy)
        entropy.accountRootKey (normalizeRecoveryPhrase host trimmed) =
        .ok ⟨newAccountKeyId accountKeyId entropy, accountRecoveryEnvelopeId,
          accountKeyVersion, normalized, entropy.accountRootKey⟩ := by
      simp [wrapAccountRootKey, isNormalized, Except.map]
    refine .exceptThen wrapped ?_
    refine .server (createAccountKey_first account (trim_newAccountKeyId accountKeyId entropy)
      (newAccountKeyId_ne_empty accountKeyId entropy)) ?_
    exact .returns ⟨by simp, _, rfl, rfl⟩

end Unlock

/-! ## A row by its id -/

section Row

variable {host : Host} {named bound : Prop} {rows : Rows} {workspace : Workspace}

theorem mem_live : workspace ∈ rows.live ↔
    workspace ∈ rows.workspaces ∧ workspace.deleted = false := by
  simp [Rows.live]

theorem find_live (inv : rows.Inv host named bound) (member : workspace ∈ rows.live) :
    rows.live.find? (fun other => other.workspaceId = workspace.workspaceId) = some workspace := by
  cases found : rows.live.find? (fun other => other.workspaceId = workspace.workspaceId) with
  | none =>
    have none := List.find?_eq_none.mp found workspace member
    simp at none
  | some other =>
    have isId : other.workspaceId = workspace.workspaceId := by
      simpa using find?_some found
    have isMember := (mem_live.mp (mem_of_find?_eq_some found)).1
    by_contra differ
    refine inv.distinct.forall isMember (mem_live.mp member).1 ?_ isId
    exact fun same => differ (congrArg some same)

theorem getWorkspace_live (inv : rows.Inv host named bound) (member : workspace ∈ rows.live)
    (operation : String) :
    rows.getWorkspace host operation workspace.workspaceId = .ok workspace := by
  obtain ⟨isTrim, parsed⟩ := trim_of_workspace inv ⟨workspace, (mem_live.mp member).1, rfl⟩
  simp only [Rows.getWorkspace, isTrim, parsed, find_live inv member]

/-- A row that has just been written is found first. -/
theorem getWorkspace_first {rest : List Workspace} {n : Nat}
    (isFirst : rows.workspaces = workspace :: rest) (isLive : workspace.deleted = false)
    (isId : workspace.workspaceId = host.mint n) (operation : String) :
    rows.getWorkspace host operation (host.mint n) = .ok workspace := by
  simp [Rows.getWorkspace, host.trim_mint, host.parseUuid_mint, Rows.live, isFirst, isLive, isId]

variable {expected : Int}

theorem updateVersioned_found {operation invalid workspaceId : String} {current : Workspace → Int}
    {change : Workspace → Workspace}
    (found : rows.getWorkspace host operation workspaceId = .ok workspace)
    (isCurrent : current workspace = expected) (nonneg : 0 ≤ expected) :
    rows.updateVersioned host operation invalid workspaceId (expected + 1) expected current change =
      (.ok (change workspace), rows.put (change workspace)) := by
  have valid : ¬ (expected < 0 ∨ expected + 1 ≠ expected + 1) := by omega
  simp only [Rows.updateVersioned, if_neg valid, found, if_pos isCurrent]

theorem updateWorkspaceMetadata_found {workspaceId : String} {blob : Blob WorkspaceAad String}
    (found : ∀ operation, rows.getWorkspace host operation workspaceId = .ok workspace)
    (isCurrent : workspace.metadataVersion = expected) (nonneg : 0 ≤ expected) :
    rows.perform host (.updateWorkspaceMetadata workspaceId blob (expected + 1) expected) =
      (.ok { workspace with encryptedMetadata := some blob, metadataVersion := expected + 1 },
        rows.put { workspace with
          encryptedMetadata := some blob
          metadataVersion := expected + 1 }) :=
  updateVersioned_found (found _) isCurrent nonneg

theorem updateWorkspaceKey_found {workspaceId : String} {blob : Blob WorkspaceAad SymmetricKey}
    (found : ∀ operation, rows.getWorkspace host operation workspaceId = .ok workspace)
    (isCurrent : workspace.workspaceKeyVersion = expected) (nonneg : 0 ≤ expected) :
    rows.perform host (.updateWorkspaceKey workspaceId blob (expected + 1) expected) =
      (.ok { workspace with encryptedWorkspaceKey := some blob, workspaceKeyVersion := expected + 1 },
        rows.put { workspace with
          encryptedWorkspaceKey := some blob
          workspaceKeyVersion := expected + 1 }) :=
  updateVersioned_found (found _) isCurrent nonneg

end Row

/-! ## The operations -/

section Operations

variable {host : Host} {named bound : Prop} {device : Nat} {world : World} {phrase : String}

/-- A workspace that is complete, first in the listing. -/
structure Rows.FirstComplete (host : Host) (rows : Rows) (account : PreparedAccountKey) (n : Nat)
    (workspace : Workspace) : Prop where
  first : ∃ rest, rows.workspaces = workspace :: rest
  isLive : workspace.deleted = false
  isId : workspace.workspaceId = host.mint n
  name : ∃ name, workspaceDisplayNameFromMetadata account workspace = .ok name
  key : ∃ key, workspaceKeyFromAccount account workspace = .ok key

variable {workspace : Workspace} {account : PreparedAccountKey}

theorem Rows.FirstComplete.workspaceById_succeeds {n : Nat}
    (complete : world.rows.FirstComplete host account n workspace) :
    world.Succeeds host device (workspaceById (host.mint n)) fun found _ => found = workspace := by
  obtain ⟨rest, isFirst⟩ := complete.first
  refine .asks (rfl : world.rows.perform host .listWorkspaces = _) ?_
  simp only [Rows.live, isFirst, filter_cons, complete.isLive, Bool.not_false, if_true,
    find?_cons, complete.isId, decide_true]
  exact .returns rfl

/-- The name and the key of a new row are stored. -/
theorem putAccountWorkspaceMetadata_succeeds {n : Nat} {name : String} {key : SymmetricKey}
    {rest : List Workspace} (isFirst : world.rows.workspaces = workspace :: rest)
    (isLive : workspace.deleted = false) (isId : workspace.workspaceId = host.mint n)
    (noName : workspace.metadataVersion = 0) (noKey : workspace.workspaceKeyVersion = 0) :
    world.Succeeds host device (putAccountWorkspaceMetadata account (host.mint n) name key)
      fun _ world' => ∃ complete, world'.rows.FirstComplete host account n complete := by
  refine .server (updateWorkspaceMetadata_found (getWorkspace_first isFirst isLive isId) noName
    (Int.le_refl 0)) ?_
  refine .server (updateWorkspaceKey_found (getWorkspace_first rfl isLive isId) noKey
    (Int.le_refl 0)) ?_
  refine .returns ⟨_, ⟨_, rfl⟩, isLive, isId, ⟨name, ?_⟩, ⟨key, ?_⟩⟩
  · simp [workspaceDisplayNameFromMetadata, encryptWorkspaceMetadata, Blob.decrypt, isId,
      workspaceMetadataVersion]
  · simp [workspaceKeyFromAccount, encryptWorkspaceKeyForAccount, Blob.decrypt, isId,
      workspaceKeyVersion]

variable {current : Option String}

theorem summary_of_complete
    (name : ∃ name, workspaceDisplayNameFromMetadata account workspace = .ok name)
    (key : ∃ key, workspaceKeyFromAccount account workspace = .ok key) :
    ∃ summary, workspaceSummaryFromMetadata account current workspace = .ok summary ∧
      summary.workspaceId = workspace.workspaceId := by
  obtain ⟨name, isName⟩ := name
  obtain ⟨key, isKey⟩ := key
  refine ⟨_, bind_ok.mpr ⟨name, isName, bind_ok.mpr ⟨key, isKey, rfl⟩⟩, rfl⟩

variable {entropy : Entropy}

theorem createAccountWorkspace_succeeds {request : CreateWorkspaceRequest}
    (inv : world.Inv host named bound) (opens : world.rows.Opens host phrase)
    (isPhrase : request.passphrase = some phrase)
    (isValid : ∀ name, request.name = some name → ∃ valid, normalizedWorkspaceName name = .ok valid) :
    world.Succeeds host device (createAccountWorkspace host entropy request current)
      fun _ _ => True := by
  simp only [createAccountWorkspace, isPhrase]
  refine .andThen (prepareAccountKey_succeeds inv opens) ?_
  intro account world₁ _
  refine .andThen (rememberAccount_succeeds account) ?_
  intro _ world₂ _
  refine .asks rfl ?_
  refine .exceptOkThen ?_ fun name isName => ?_
  · cases given : request.name with
    | none => exact ⟨_, rfl⟩
    | some name => exact isValid name given
  refine .server (rfl : world₂.rows.perform host .createWorkspace = _) ?_
  refine .andThen (putAccountWorkspaceMetadata_succeeds rfl rfl rfl rfl rfl) ?_
  rintro _ world₃ ⟨workspace, complete⟩
  refine .andThen complete.workspaceById_succeeds ?_
  rintro _ _ rfl
  obtain ⟨summary, isSummary, _⟩ := summary_of_complete complete.name complete.key
  exact .ofExcept isSummary trivial

theorem updateDeviceMetadata_first {rows : Rows} {workspaceId : String} {n : Nat}
    {blob : Blob DeviceAad String} {signingKey : SigningKey} {rest : List Device}
    (isFirst : rows.devices = ⟨host.mint n, workspace.workspaceId, signingKey, none, 0⟩ :: rest)
    (found : rows.getWorkspace host "UpdateDeviceMetadata" workspaceId = .ok workspace) :
    (rows.perform host (.updateDeviceMetadata workspaceId (host.mint n) blob 1 0)).1 =
      .ok ⟨host.mint n, workspace.workspaceId, signingKey, some blob, 1⟩ := by
  simp [Rows.perform, Rows.updateDeviceMetadata, found, host.trim_mint, host.parseUuid_mint,
    isFirst]

theorem registerDeviceWithName_succeeds {workspaceId name : String} {signingKey : SigningKey}
    (found : ∀ operation, world.rows.getWorkspace host operation workspaceId = .ok workspace) :
    world.Succeeds host device (registerDeviceWithName account workspaceId signingKey name)
      fun _ _ => True := by
  have registered : world.rows.perform host (.registerDevice workspaceId signingKey) =
      (.ok ⟨host.mint world.rows.minted, workspace.workspaceId, signingKey, none, 0⟩,
        { world.rows with
          devices := ⟨host.mint world.rows.minted, workspace.workspaceId, signingKey, none, 0⟩ ::
            world.rows.devices
          minted := world.rows.minted + 1 }) := by
    simp only [Rows.perform, Rows.registerDevice, found]
  refine .server registered ?_
  -- the new row is the first of the devices, at version zero
  exact .ends (updateDeviceMetadata_first rfl (found _))

theorem prepareNewWorkspace_succeeds {config : VaultConfig} (inv : world.Inv host named bound)
    (opens : world.rows.Opens host phrase) (isPhrase : config.passphrase = some phrase) :
    world.Succeeds host device (prepareNewWorkspace host entropy config) fun _ _ => True := by
  simp only [prepareNewWorkspace, isPhrase]
  refine .andThen (prepareAccountKey_succeeds inv opens) ?_
  intro account world₁ _
  refine .server (rfl : world₁.rows.perform host .createWorkspace = _) ?_
  refine .andThen (putAccountWorkspaceMetadata_succeeds rfl rfl rfl rfl rfl) ?_
  rintro _ world₂ ⟨workspace, complete⟩
  obtain ⟨rest, isFirst⟩ := complete.first
  refine .andThen (registerDeviceWithName_succeeds
    (getWorkspace_first isFirst complete.isLive complete.isId)) ?_
  exact fun _ _ _ => .returns trivial

theorem deleteAccountWorkspace_succeeds (inv : world.Inv host named bound)
    (member : workspace ∈ world.rows.live) :
    world.Succeeds host device (deleteAccountWorkspace workspace.workspaceId) fun _ _ => True := by
  obtain ⟨isTrim, parsed⟩ := trim_of_workspace inv.rows ⟨workspace, (mem_live.mp member).1, rfl⟩
  have deleted : (world.rows.perform host (.deleteWorkspace workspace.workspaceId)).1 = .ok () := by
    simp only [Rows.perform, Rows.deleteWorkspace, isTrim, parsed]
  exact .ends deleted

/-! ## Rows that can be read -/

theorem key_of_stored {rows : Rows} (inv : rows.Inv host named bound)
    (unlocks : rows.Unlocks account.accountKeyId account.accountRootKey)
    (member : workspace ∈ rows.workspaces) (stored : workspace.encryptedWorkspaceKey.isSome) :
    ∃ key, workspaceKeyFromAccount account workspace = .ok key := by
  obtain ⟨blob, isBlob⟩ := Option.isSome_iff_exists.mp stored
  have seals := inv.keyed workspace member
  rw [isBlob] at seals
  obtain ⟨positive, opened⟩ := seals.opens unlocks
  refine ⟨blob.plaintext, ?_⟩
  have notMissing : ¬ workspace.workspaceKeyVersion ≤ 0 := by omega
  simp only [workspaceKeyFromAccount, isBlob, if_neg notMissing, workspaceAad]
  exact opened

theorem name_of_stored {rows : Rows} (inv : rows.Inv host True bound)
    (unlocks : rows.Unlocks account.accountKeyId account.accountRootKey)
    (member : workspace ∈ rows.workspaces) (stored : workspace.encryptedMetadata.isSome) :
    ∃ name, workspaceDisplayNameFromMetadata account workspace = .ok name := by
  obtain ⟨blob, isBlob⟩ := Option.isSome_iff_exists.mp stored
  have seals := inv.metadata trivial workspace member
  rw [isBlob] at seals
  obtain ⟨positive, opened⟩ := seals.opens unlocks
  refine ⟨blob.plaintext, ?_⟩
  have notMissing : ¬ workspace.metadataVersion ≤ 0 := by omega
  simp only [workspaceDisplayNameFromMetadata, isBlob, if_neg notMissing, workspaceAad]
  exact opened

theorem stored_of_summary {summary : WorkspaceSummary}
    (isSummary : workspaceSummaryFromMetadata account current workspace = .ok summary) :
    summary.workspaceId = workspace.workspaceId ∧ workspace.encryptedMetadata.isSome ∧
      workspace.encryptedWorkspaceKey.isSome := by
  obtain ⟨name, isName, rest⟩ := bind_ok.mp isSummary
  obtain ⟨key, isKey, made⟩ := bind_ok.mp rest
  cases made
  refine ⟨rfl, ?_, ?_⟩
  · cases stored : workspace.encryptedMetadata with
    | none =>
      rw [workspaceDisplayNameFromMetadata, stored] at isName
      cases isName
    | some blob => rfl
  · cases stored : workspace.encryptedWorkspaceKey with
    | none =>
      rw [workspaceKeyFromAccount, stored] at isKey
      cases isKey
    | some blob => rfl

/-- The listing is the summaries of the live rows. -/
theorem listAccountWorkspaces_run {accountKeyId : String} {envelope : AccountKeyEnvelope}
    (inv : world.Inv host named bound)
    (account : world.rows.accountKey = some (accountKeyId, envelope))
    (opens : world.rows.Opens host phrase) :
    ∃ account world', world.rows.Unlocks account.accountKeyId account.accountRootKey ∧
      world.runAlone host device (listAccountWorkspaces host current (some phrase)) =
        (world.rows.live.mapM (workspaceSummaryFromMetadata account current), world') := by
  have unlocked : world.Succeeds host device (unlockExistingAccountKey host (some phrase)) _ :=
    unlockExistingAccountKey_succeeds inv account opens
  obtain ⟨_, world', ran, sameRows, account', rfl, unlocks⟩ := unlocked
  refine ⟨account', world', unlocks, ?_⟩
  have listed : world'.runAlone host device (server .listWorkspaces) =
      (.ok world.rows.live, world') := by
    refine Prog.run_perform _ ?_
    simp only [World.perform, Rows.perform, sameRows]
    rw [← sameRows]
  rw [World.runAlone, listAccountWorkspaces, Prog.run_bind_ok _ _ ran]
  dsimp only
  rw [Prog.run_bind_ok _ _ listed]
  cases world.rows.live.mapM (workspaceSummaryFromMetadata account' current) <;> rfl

theorem listAccountWorkspaces_none (absent : world.rows.accountKey = none) :
    world.Succeeds host device (listAccountWorkspaces host current (some phrase))
      fun summaries _ => summaries = [] := by
  have locked : world.Succeeds host device (unlockExistingAccountKey host (some phrase))
      fun account _ => account = none := by
    have answered : world.rows.perform host .getAccountKeyState = (.ok none, world.rows) := by
      simp [Rows.perform, absent]
    refine .asks answered ?_
    exact .returns rfl
  refine .andThen locked ?_
  rintro _ world' rfl
  exact .returns rfl

theorem prepareExistingWorkspace_succeeds {config : VaultConfig}
    {localVault : Option SyncVaultRecord} (inv : world.Inv host named bound)
    (opens : world.rows.Opens host phrase) (isPhrase : config.passphrase = some phrase)
    (member : workspace ∈ world.rows.live)
    (isId : trim config.remoteWorkspaceId = workspace.workspaceId)
    (stored : workspace.encryptedWorkspaceKey.isSome) :
    world.Succeeds host device (prepareExistingWorkspace host entropy config localVault)
      fun prepared _ => prepared.workspaceId = workspace.workspaceId ∧
        world.rows.KeyOf workspace.workspaceId prepared.workspaceKey := by
  have isMember := (mem_live.mp member).1
  have founded := inv.rows.founded (ne_nil_of_mem isMember)
  simp only [prepareExistingWorkspace, isPhrase, isId]
  refine .andThen (prepareAccountKey_succeeds inv opens) ?_
  rintro account world₁ ⟨same, unlocks⟩
  rw [same founded] at unlocks
  have found : ∀ operation, world₁.rows.getWorkspace host operation workspace.workspaceId =
      .ok workspace := by
    intro operation
    rw [same founded]
    exact getWorkspace_live inv.rows member operation
  have listed : world₁.rows.perform host .listWorkspaces = (.ok world.rows.live, world₁.rows) := by
    simp [Rows.perform, same founded]
  have byId : world₁.Succeeds host device (workspaceById workspace.workspaceId)
      fun found world' => found = workspace ∧ world' = world₁ := by
    refine .asks listed ?_
    rw [find_live inv.rows member]
    exact .returns ⟨rfl, rfl⟩
  refine .andThen byId ?_
  rintro _ _ ⟨rfl, rfl⟩
  obtain ⟨key, opened⟩ := key_of_stored inv.rows unlocks isMember stored
  have isKey := keyOf_listed isMember rfl opened
  refine .exceptThen opened ?_
  refine .read (fun _ => rfl) ?_
  split
  · exact .returns ⟨rfl, isKey⟩
  · refine .andThen (registerDeviceWithName_succeeds found) ?_
    exact fun _ _ _ => .returns ⟨rfl, isKey⟩

theorem renameAccountWorkspace_succeeds {request : RenameWorkspaceRequest}
    (inv : world.Inv host True bound) (opens : world.rows.Opens host phrase)
    (isPhrase : request.passphrase = some phrase)
    (isValid : ∃ valid, normalizedWorkspaceName request.name = .ok valid)
    (member : workspace ∈ world.rows.live)
    (isId : trim request.workspaceId = workspace.workspaceId)
    (isCurrent : request.expectedMetadataVersion = workspace.metadataVersion)
    (notLast : request.expectedMetadataVersion ≠ i64Max)
    (stored : workspace.encryptedWorkspaceKey.isSome) :
    world.Succeeds host device (renameAccountWorkspace host request current) fun _ _ => True := by
  have isMember := (mem_live.mp member).1
  have founded := inv.rows.founded (ne_nil_of_mem isMember)
  obtain ⟨⟨accountKeyId, envelope⟩, account⟩ := Option.isSome_iff_exists.mp founded
  have notEmpty : workspace.workspaceId ≠ "" := by
    obtain ⟨n, _, isMint⟩ := inv.rows.minted workspace isMember
    rw [isMint]
    exact host.mint_ne_empty n
  have nonneg : 0 ≤ workspace.metadataVersion := by
    have seals := inv.rows.metadata trivial workspace isMember
    cases isBlob : workspace.encryptedMetadata with
    | none =>
      rw [isBlob] at seals
      exact Int.le_of_eq seals.symm
    | some blob =>
      rw [isBlob] at seals
      exact Int.le_of_lt seals.1
  have normalized : normalizedWorkspaceId request.workspaceId = .ok workspace.workspaceId := by
    simp [normalizedWorkspaceId, isId, notEmpty]
  obtain ⟨name, isName⟩ := isValid
  simp only [renameAccountWorkspace, isPhrase]
  refine .exceptThen normalized ?_
  refine .exceptThen isName ?_
  refine .andThen (unlockExistingAccountKey_succeeds inv account opens) ?_
  rintro _ world₁ ⟨same, account', rfl, unlocks⟩
  dsimp only
  rw [if_neg notLast, isCurrent]
  have found : ∀ operation, world₁.rows.getWorkspace host operation workspace.workspaceId =
      .ok workspace := by
    intro operation
    rw [same]
    exact getWorkspace_live inv.rows member operation
  refine .server (updateWorkspaceMetadata_found found rfl nonneg) ?_
  obtain ⟨key, opened⟩ := key_of_stored inv.rows unlocks isMember stored
  have renamed : workspaceDisplayNameFromMetadata account'
      { workspace with
        encryptedMetadata := some (encryptWorkspaceMetadata account' workspace.workspaceId
          (workspace.metadataVersion + 1) name)
        metadataVersion := workspace.metadataVersion + 1 } = .ok name := by
    have notMissing : ¬ workspace.metadataVersion + 1 ≤ 0 := by omega
    simp [workspaceDisplayNameFromMetadata, encryptWorkspaceMetadata, Blob.decrypt, notMissing]
  obtain ⟨summary, isSummary, _⟩ := summary_of_complete ⟨name, renamed⟩ ⟨key, opened⟩
  exact .ofExcept isSummary trivial

end Operations

/-! ## The account after any interrupted set-up -/

variable {host : Host}

theorem opens_of_account {named bound : Prop} {rows : Rows} {accountKeyId : String}
    {envelope : AccountKeyEnvelope} (inv : rows.Inv host named bound)
    (account : rows.accountKey = some (accountKeyId, envelope)) :
    ∃ phrase, rows.Opens host phrase := by
  obtain ⟨phrase, isPhrase⟩ := (inv.account accountKeyId envelope account).2
  have sameWords : requireRecoveryPhrase host (trim phrase) = .ok envelope.phrase := by
    rw [requireRecoveryPhrase, normalizeRecoveryPhrase, words_trim]
    exact isPhrase
  -- a blank phrase has no words, and an envelope is made of some
  have notBlank : trim phrase ≠ "" := by
    intro isBlank
    rw [isBlank] at sameWords
    simp [requireRecoveryPhrase, normalizeRecoveryPhrase, words, join] at sameWords
  refine ⟨phrase, trim phrase, ?_, ?_⟩
  · simp [nonEmptyTrimmed, notBlank]
  · rw [account]
    exact unwrapAccountRootKey_of_phrase sameWords

theorem World.Inv.unblocked {bound : Prop} {world : World} (inv : world.Inv host True bound)
    (complete : world.rows.Complete) : world.Unblocked host := by
  intro device phrase opens
  refine ⟨?_, ?_, ?_, ?_, ?_, ?_⟩
  · intro current
    cases account : world.rows.accountKey with
    | none =>
      refine (listAccountWorkspaces_none account).mono ?_
      rintro _ _ rfl
      refine ⟨?_, by simp⟩
      intro workspace member _ _
      have founded := inv.rows.founded (ne_nil_of_mem (mem_live.mp member).1)
      rw [account] at founded
      cases founded
    | some stored =>
      obtain ⟨account', world', unlocks, ran⟩ := listAccountWorkspaces_run inv account opens
      have readable : ∀ workspace ∈ world.rows.live, ∃ summary,
          workspaceSummaryFromMetadata account' current workspace = .ok summary := by
        intro workspace member
        have isMember := (mem_live.mp member).1
        obtain ⟨hasName, hasKey⟩ := complete workspace member
        obtain ⟨summary, isSummary, _⟩ := summary_of_complete
          (name_of_stored inv.rows unlocks isMember hasName)
          (key_of_stored inv.rows unlocks isMember hasKey)
        exact ⟨summary, isSummary⟩
      obtain ⟨summaries, listed⟩ := mapM_ok_of_forall readable
      rw [listed] at ran
      refine ⟨summaries, world', ran, ?_, ?_⟩
      · intro workspace member _ _
        obtain ⟨summary, isListed, isSummary⟩ := mapM_ok_left listed member
        exact ⟨summary, isListed, (stored_of_summary isSummary).1⟩
      · intro summary isListed entropy config localVault isId isPhrase
        obtain ⟨workspace, member, isSummary⟩ := mapM_ok_right listed isListed
        obtain ⟨sameId, _, hasKey⟩ := stored_of_summary isSummary
        rw [sameId] at isId ⊢
        exact prepareExistingWorkspace_succeeds inv opens isPhrase member isId hasKey
  · intro entropy request current isPhrase isValid
    exact createAccountWorkspace_succeeds inv opens isPhrase isValid
  · intro entropy config isPhrase
    exact prepareNewWorkspace_succeeds inv opens isPhrase
  · rintro request current isPhrase isValid ⟨workspace, member, isId, isCurrent⟩ notLast
    exact renameAccountWorkspace_succeeds inv opens isPhrase isValid member isId isCurrent notLast
      (complete workspace member).2
  · intro workspace member
    exact deleteAccountWorkspace_succeeds inv member
  · intro workspace member account signingKey name
    exact registerDeviceWithName_succeeds (getWorkspace_live inv.rows member)

/-- A listing that succeeds has read the name and the key of every live row. -/
theorem World.Inv.complete {named bound : Prop} {world : World} (inv : world.Inv host named bound)
    (unblocked : world.Unblocked host) :
    world.rows.Complete := by
  intro workspace member
  have founded := inv.rows.founded (ne_nil_of_mem (mem_live.mp member).1)
  obtain ⟨⟨accountKeyId, envelope⟩, account⟩ := Option.isSome_iff_exists.mp founded
  obtain ⟨phrase, opens⟩ := opens_of_account inv.rows account
  obtain ⟨summaries, _, succeeded, _⟩ := (unblocked 0 phrase opens).lists none
  obtain ⟨account', _, _, ran⟩ := listAccountWorkspaces_run inv account opens
  have listed := (congrArg Prod.fst ran).symm.trans (congrArg Prod.fst succeeded)
  obtain ⟨summary, _, isSummary⟩ := mapM_ok_left listed member
  exact (stored_of_summary isSummary).2

/-- **An interrupted set-up blocks nothing exactly when it left no live workspace without
its name or key**, in every state of every run of any number of desktops whose renames
name the workspace by the text of its id. -/
theorem unblocked_iff_complete {host : Host}
    {c : Machine.Config World Nat Call.Res SyncError Unit}
    (reached : ((desktops host).system (· = World.initial)).ReachableBy
      (commandsOk host True False).meets c) :
    c.shared.Unblocked host ↔ c.shared.rows.Complete := by
  have inv := desktops_safe reached
  exact ⟨inv.complete, inv.unblocked⟩

/-! ## A creation that stops half way -/

/-- A workspace is created; the account is founded if there is none. -/
def createOne : Command := .createWorkspace ⟨0, 0, 1, 1⟩ ⟨some "n", some "p"⟩

theorem unblocked_after_creation :
    ∃ c, ((desktops default).system (· = World.initial)).ReachableBy
        (commandsOk default True False).meets c ∧
      c.shared.rows.live.length = 1 ∧ c.shared.Unblocked default := by
  have ran : (System.run (desktops default).next idle (runs createOne (answers 10))).map
      (fun c => (c.shared.rows.live.length, decide c.shared.rows.Complete)) = some (1, true) := by
    decide +kernel
  obtain ⟨c, reached, observed⟩ := Option.map_eq_some_iff.mp ran
  obtain ⟨isOne, complete⟩ := Prod.mk.inj observed
  have free : ∀ label ∈ runs createOne (answers 10), unconditional label = true := by
    decide
  have reachable : ((desktops default).system (· = World.initial)).ReachableBy
      (commandsOk default True False).meets c :=
    reachable_idle.run (fun label member => meets_of_unconditional (free label member)) reached
  exact ⟨c, reachable, isOne, (unblocked_iff_complete reachable).mpr (of_decide_eq_true complete)⟩

/-- One workspace is complete and the desktop crashes while it creates a second one: with
the right phrase, the listing fails. -/
theorem not_unblocked_after_stopped_creation :
    ∃ c, ((desktops default).system (· = World.initial)).Reachable c ∧
      ¬ c.shared.Unblocked default := by
  have ran : (System.run (desktops default).next idle
      (runs createOne (answers 10) ++
        .start 0 createOne :: (answers 6).map (.call 0) ++ [.crash 0])).map (fun c =>
      (c.shared.rows.accountKey.map fun account => account.2.phrase,
        (c.shared.runAlone default 0
          (listAccountWorkspaces default none (some "p"))).1.toOption.isSome)) =
      some (some "p", false) := by
    decide +kernel
  obtain ⟨c, reached, observed⟩ := Option.map_eq_some_iff.mp ran
  obtain ⟨isPhrase, fails⟩ := Prod.mk.inj observed
  refine ⟨c, System.reachable_of_run reachable_idle reached, ?_⟩
  intro unblocked
  have opens : c.shared.rows.Opens default "p" := by
    obtain ⟨⟨accountKeyId, envelope⟩, account, isEnvelope⟩ := Option.map_eq_some_iff.mp isPhrase
    refine ⟨"p", by decide, ?_⟩
    rw [account]
    refine unwrapAccountRootKey_of_phrase ?_
    rw [show envelope.phrase = "p" from isEnvelope]
    rfl
  obtain ⟨summaries, _, succeeded, _⟩ := (unblocked 0 "p" opens).lists none
  rw [congrArg Prod.fst succeeded] at fails
  cases fails

end Kuku.Account
