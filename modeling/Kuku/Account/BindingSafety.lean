/-
# Account.BindingSafety -- the commands that bind a vault

The programs of `Account.Vault` among any other desktops, the runs apart.  A vault is
bound to one workspace and device, and a command that writes a store of the binding
writes what the other stores say (`Client.Fits`).

`ConfigureOk` is what `sync_configure_vault` needs for that: nothing names the vault and
its row has not been synced, or the row names the workspace already and its device can be
reused.
-/
import Kuku.Account.SetupSafety

namespace Kuku.Account

open Kuku.Theory Kuku.Sync List Function Option Text World

/-! ## What may be written -/

/-- Whatever binds the vault binds it to this workspace and device. -/
structure Client.Ready (rows : Rows) (client : Client) (vaultId workspaceId deviceId : String) :
    Prop where
  device : trim deviceId = deviceId
  workspace : ∃ workspace ∈ rows.workspaces, workspace.workspaceId = workspaceId
  names : ∀ {w d}, client.Names vaultId w d → w = workspaceId ∧ d = deviceId
  row : ∀ {vault}, client.vaults vaultId = some vault →
    (vault.remoteWorkspaceId = workspaceId ∧ vault.deviceId = deviceId) ∨ Unsynced vault

/-- And the remembered key is the workspace's. -/
structure Client.Keyed (rows : Rows) (client : Client) (vaultId workspaceId deviceId : String) :
    Prop extends Client.Ready rows client vaultId workspaceId deviceId where
  slot : ∀ {key}, client.keychain.workspaceKeys vaultId = some key → rows.KeyOf workspaceId key

/-- And the vault id has a database. -/
structure Client.Fits (rows : Rows) (client : Client) (vaultId workspaceId deviceId : String) :
    Prop extends Client.Keyed rows client vaultId workspaceId deviceId where
  opens : openSyncDbForVault vaultId = .ok ()

section Stores

variable {rows later : Rows} {bound : Prop} {client other : Client} {v w d : String}

theorem Client.Ready.mono (ready : client.Ready rows v w d) (le : rows.Le later) :
    client.Ready later v w d := by
  refine ⟨ready.device, ?_, ready.names, ready.row⟩
  obtain ⟨workspace, member, rfl⟩ := ready.workspace
  obtain ⟨workspace', member', sameId, _⟩ := le.workspaces workspace member
  exact ⟨workspace', member', sameId⟩

theorem Client.Keyed.mono (keyed : client.Keyed rows v w d) (le : rows.Le later) :
    client.Keyed later v w d :=
  ⟨keyed.toReady.mono le, fun slot => (keyed.slot slot).mono le⟩

theorem Client.Fits.mono (fits : client.Fits rows v w d) (le : rows.Le later) :
    client.Fits later v w d :=
  ⟨fits.toKeyed.mono le, fits.opens⟩

/-- The keychain is no part of it. -/
theorem Client.Ready.same (ready : client.Ready rows v w d) (status : other.status = client.status)
    (files : other.configFiles = client.configFiles) (vaults : other.vaults = client.vaults) :
    other.Ready rows v w d := by
  have names : ∀ {w' d'}, other.Names v w' d' → client.Names v w' d' := by
    intro w' d' named
    simpa only [Client.Names, status, files] using named
  exact ⟨ready.device, ready.workspace, fun named => ready.names (names named),
    fun found => ready.row (vaults ▸ found)⟩

theorem Client.Keyed.same (keyed : client.Keyed rows v w d) (status : other.status = client.status)
    (files : other.configFiles = client.configFiles) (vaults : other.vaults = client.vaults)
    (slots : ∀ {key}, other.keychain.workspaceKeys v = some key →
      client.keychain.workspaceKeys v = some key) : other.Keyed rows v w d :=
  ⟨keyed.toReady.same status files vaults, fun slot => keyed.slot (slots slot)⟩

theorem Client.Binding.fits (binding : client.Binding rows) (named : client.Names v w d) :
    client.Fits rows v w d := by
  obtain ⟨opens, isTrimmed, exist⟩ := binding.text named
  refine ⟨⟨⟨isTrimmed, exist, ?_, binding.compatible named⟩, binding.slot named⟩, opens⟩
  intro w' d' named'
  obtain ⟨sameW, sameD⟩ := binding.agree named' named
  exact ⟨sameW, sameD⟩

variable (good : client.Good bound rows)

include good

/-- Less is bound, less is remembered. -/
theorem Client.Good.forget
    (roots : other.keychain.accountRootKeys = client.keychain.accountRootKeys)
    (names : ∀ {v w d}, other.Names v w d → client.Names v w d)
    (slots : ∀ {v key}, other.keychain.workspaceKeys v = some key →
      client.keychain.workspaceKeys v = some key)
    (vaults : ∀ {v vault}, other.vaults v = some vault → client.vaults v = some vault) :
    other.Good bound rows := by
  refine ⟨fun found => good.root (roots ▸ found), ?_⟩
  intro isBound
  have binding := good.binding isBound
  exact ⟨fun named => binding.text (names named),
    fun first second => binding.agree (names first) (names second),
    fun named slot => binding.slot (names named) (slots slot),
    fun found => binding.row (vaults found),
    fun named found => binding.compatible (names named) (vaults found)⟩

theorem Client.Good.rememberWorkspaceKey {key : SymmetricKey}
    (isKey : bound → ∀ {w d}, client.Names v w d → rows.KeyOf w key) :
    (client.perform (.rememberWorkspaceKey v key)).2.Good bound rows := by
  refine ⟨good.root, ?_⟩
  intro isBound
  have binding := good.binding isBound
  refine ⟨binding.text, binding.agree, ?_, binding.row, binding.compatible⟩
  intro v' w' d' key' named slot
  simp only [Client.perform, Client.setWorkspaceKeys, update_apply] at slot
  split at slot
  · rename_i sameVault
    cases slot
    exact isKey isBound (sameVault ▸ named)
  · exact binding.slot named slot

theorem Client.Good.setVault {vault : SyncVaultRecord}
    (isVault : bound → vault.vaultId = v ∧ rows.Records vault ∧ ∀ {w d}, client.Names v w d →
      (vault.remoteWorkspaceId = w ∧ vault.deviceId = d) ∨ Unsynced vault) :
    (client.setVaults (Function.update client.vaults v (some vault))).Good bound rows := by
  refine ⟨good.root, ?_⟩
  intro isBound
  have binding := good.binding isBound
  obtain ⟨isId, records, compatible⟩ := isVault isBound
  refine ⟨binding.text, binding.agree, binding.slot, ?_, ?_⟩
  · intro v' vault' found
    simp only [Client.setVaults, update_apply] at found
    split at found
    · rename_i sameVault
      cases found
      exact ⟨isId.trans sameVault.symm, records⟩
    · exact binding.row found
  · intro v' w' d' vault' named found
    simp only [Client.setVaults, update_apply] at found
    split at found
    · rename_i sameVault
      cases found
      exact compatible (sameVault ▸ named)
    · exact binding.compatible named found

/-- One more store names the vault. -/
theorem Client.Good.name (fits : bound → client.Fits rows v w d)
    (keychain : other.keychain = client.keychain) (vaults : other.vaults = client.vaults)
    (names : ∀ {v' w' d'}, other.Names v' w' d' →
      client.Names v' w' d' ∨ (bound → v' = v ∧ w' = w ∧ d' = d)) :
    other.Good bound rows := by
  refine ⟨fun found => good.root (keychain ▸ found), ?_⟩
  intro isBound
  have binding := good.binding isBound
  have isFit := fits isBound
  have names' : ∀ {v' w' d'}, other.Names v' w' d' →
      client.Names v' w' d' ∨ (v' = v ∧ w' = w ∧ d' = d) := by
    intro v' w' d' named
    rcases names named with old | new
    · exact .inl old
    · exact .inr (new isBound)
  refine ⟨?_, ?_, ?_, fun found => binding.row (vaults ▸ found), ?_⟩
  · intro v' w' d' named
    rcases names' named with old | ⟨rfl, rfl, rfl⟩
    · exact binding.text old
    · exact ⟨isFit.opens, isFit.device, isFit.workspace⟩
  · intro v' w₁ d₁ w₂ d₂ first second
    rcases names' first with old | ⟨rfl, rfl, rfl⟩ <;>
      rcases names' second with old' | ⟨sameV, rfl, rfl⟩
    · exact binding.agree old old'
    · exact isFit.names (sameV ▸ old)
    · obtain ⟨sameW, sameD⟩ := isFit.names old'
      exact ⟨sameW.symm, sameD.symm⟩
    · exact ⟨rfl, rfl⟩
  · intro v' w' d' key named slot
    rw [keychain] at slot
    rcases names' named with old | ⟨rfl, rfl, rfl⟩
    · exact binding.slot old slot
    · exact isFit.slot slot
  · intro v' w' d' vault named found
    rw [vaults] at found
    rcases names' named with old | ⟨rfl, rfl, rfl⟩
    · exact binding.compatible old found
    · exact isFit.row found

end Stores

/-! ## The row -/

section Row

variable {rows : Rows} {w d : String}

/-- A row of this binding keeps its heads; a row that was never synced has none. -/
theorem Rows.Records.rebind {vault : SyncVaultRecord} (records : rows.Records vault)
    (compatible : (vault.remoteWorkspaceId = w ∧ vault.deviceId = d) ∨ Unsynced vault)
    (rootPath : String) (enabled : Bool) :
    rows.Records
      { vault with
        rootPath
        remoteWorkspaceId := w
        deviceId := d
        enabled } := by
  rcases compatible with ⟨rfl, rfl⟩ | ⟨noLocal, noRemote, first⟩
  · exact ⟨records.localHead, records.remoteHead, records.seq⟩
  · refine ⟨?_, ?_, .inl first⟩
    · intro head isHead
      rw [show vault.localHeadCommitId = some head from isHead] at noLocal
      cases noLocal
    · intro head isHead
      rw [show vault.remoteHeadCommitId = some head from isHead] at noRemote
      cases noRemote

theorem records_persistConfiguredVault {existing : Option SyncVaultRecord} {config : SyncVaultConfig}
    (enabled : Bool)
    (known : ∀ vault, existing = some vault → rows.Records vault ∧
      ((vault.remoteWorkspaceId = config.remoteWorkspaceId ∧ vault.deviceId = config.deviceId) ∨
        Unsynced vault)) :
    rows.Records (persistConfiguredVault existing config enabled) := by
  cases existing with
  | none => exact ⟨by simp [persistConfiguredVault], by simp [persistConfiguredVault], .inl rfl⟩
  | some vault =>
    obtain ⟨records, compatible⟩ := known vault rfl
    exact records.rebind compatible config.rootPath enabled

/-- The head of a workspace is one of its commits. -/
theorem headOf_hasCommit {head : String}
    (isHead : emptyToNone (rows.headOf w).currentHeadCommitId = some head) :
    rows.HasCommit w head := by
  cases last : (rows.commitsOf w).getLast? with
  | none => simp [emptyToNone, Rows.headOf, last] at isHead
  | some commit =>
    have isCommit : commit.commitId = head := by
      simp only [emptyToNone, Rows.headOf, last, map_some, getD_some] at isHead
      split at isHead <;> cases isHead
      rfl
    have member := mem_of_getLast? last
    simp only [Rows.commitsOf, mem_filter, decide_eq_true_eq] at member
    exact ⟨commit, member.1, member.2, isCommit⟩

theorem records_ensureRecord {existing : Option SyncVaultRecord} {input : PipelineInput}
    {head : SyncHead} {newLocalHead : Option String}
    (known : ∀ vault, existing = some vault → rows.Records vault ∧
      ((vault.remoteWorkspaceId = input.workspaceId ∧ vault.deviceId = input.deviceId) ∨
        Unsynced vault))
    (isHead : ∀ commit, emptyToNone head.currentHeadCommitId = some commit →
      rows.HasCommit input.workspaceId commit)
    (isLocal : ∀ commit, newLocalHead = some commit → rows.HasCommit input.workspaceId commit) :
    rows.Records (ensureRecord existing input head newLocalHead) := by
  cases existing with
  | none => exact ⟨isLocal, isHead, .inl rfl⟩
  | some vault =>
    obtain ⟨records, compatible⟩ := known vault rfl
    have rebound := records.rebind compatible input.vaultRoot true
    refine ⟨rebound.localHead, rebound.remoteHead, ?_⟩
    simp only [ensureRecord, getD_some]
    split
    · exact .inl rfl
    · exact rebound.seq

/-- The remote head may be replaced by the workspace's. -/
theorem Rows.Records.setRemoteHead {vault : SyncVaultRecord} (records : rows.Records vault)
    {head : Option String}
    (isHead : ∀ commit, head = some commit → rows.HasCommit vault.remoteWorkspaceId commit) :
    rows.Records { vault with remoteHeadCommitId := head } :=
  ⟨records.localHead, isHead, records.seq⟩

end Row

/-! ## Writing a binding -/

theorem solid_of_vaultIdChar {c : Char}
    (valid : (('a' ≤ c && c ≤ 'z') || ('A' ≤ c && c ≤ 'Z') || ('0' ≤ c && c ≤ '9') || c = '-' ||
      c = '_') = true) : isSpace c = false := by
  have toNat : ∀ a b : Char, a ≤ b ↔ a.toNat ≤ b.toNat := fun _ _ => Iff.rfl
  have bounds : (97 ≤ c.toNat ∧ c.toNat ≤ 122) ∨ (65 ≤ c.toNat ∧ c.toNat ≤ 90) ∨
      (48 ≤ c.toNat ∧ c.toNat ≤ 57) ∨ c.toNat = 45 ∨ c.toNat = 95 := by
    simp only [Bool.or_eq_true, Bool.and_eq_true, decide_eq_true_eq, toNat] at valid
    rcases valid with (((small | capital) | digit) | rfl) | rfl
    · exact .inl small
    · exact .inr (.inl capital)
    · exact .inr (.inr (.inl digit))
    · exact .inr (.inr (.inr (.inl rfl)))
    · exact .inr (.inr (.inr (.inr rfl)))
  simp only [isSpace, Bool.or_eq_false_iff, Bool.and_eq_false_iff, beq_eq_false_iff_ne,
    decide_eq_false_iff_not]
  omega

/-- A vault id that makes a file name has no white space. -/
theorem trim_of_opens {vaultId : String} (opens : openSyncDbForVault vaultId = .ok ()) :
    trim vaultId = vaultId := by
  apply trim_eq_self
  intro c member
  simp only [openSyncDbForVault] at opens
  split at opens
  · cases opens
  · rename_i valid
    simp only [Bool.or_eq_true, decide_eq_true_eq, Bool.not_eq_true', not_or,
      Bool.not_eq_false, List.all_eq_true] at valid
    exact solid_of_vaultIdChar (by simpa using valid.2 c member)

theorem trim_of_workspace {host : Host} {named bound : Prop} {rows : Rows} {workspaceId : String}
    (inv : rows.Inv host named bound)
    (exist : ∃ workspace ∈ rows.workspaces, workspace.workspaceId = workspaceId) :
    trim workspaceId = workspaceId ∧ host.parseUuid workspaceId = some workspaceId := by
  obtain ⟨workspace, member, rfl⟩ := exist
  obtain ⟨n, _, isMint⟩ := inv.minted workspace member
  rw [isMint]
  exact ⟨host.trim_mint n, host.parseUuid_mint n⟩

section Binding

variable {host : Host} {named bound : Prop} {device : Nat} {s : World}

theorem Safely.any {α : Type} {program : Program α} {returned : α → World → Prop}
    (safe : Safely host named bound device (fun _ => True) program returned s) :
    Safely host named bound device (fun _ => True) program (fun _ _ => True) s := by
  refine safe.mono ?_
  intro answer _ _
  cases answer <;> trivial

variable {config : VaultConfig} {enabled : Bool}

/-- The row is written; the other stores are not. -/
theorem persistVault_safe
    (ready : bound → (s.clients device).Ready s.rows config.vaultId config.remoteWorkspaceId
      config.deviceId) :
    Safely host named bound device (fun _ => True) (persistVault config enabled)
      (fun _ s' => s.rows.Le s'.rows ∧ openSyncDbForVault config.vaultId = .ok () ∧
        (s'.clients device).status = (s.clients device).status ∧
        (s'.clients device).keychain = (s.clients device).keychain ∧
        (bound → (s'.clients device).Ready s'.rows config.vaultId config.remoteWorkspaceId
          config.deviceId)) s := by
  refine Prog.Holds.exceptThen trivial ?_
  intro _ opens
  refine holds_read (fun _ => rfl) (fun _ _ => trivial) ?_
  intro s₁ relied₁ inv₁
  simp only [Client.perform]
  rw [← Prog.bind_pure (store _)]
  have atKey : bound → (persistConfiguredVault ((s₁.clients device).vaults config.vaultId)
      config.toSyncVaultConfig enabled).vaultId = config.vaultId := by
    intro isBound
    cases found : (s₁.clients device).vaults config.vaultId with
    | none => rfl
    | some vault => exact (((inv₁.clients device).binding isBound).row found).1
  refine holds_store ?_ (fun _ _ => trivial) ?_
  · intro s₂ relied₂ inv₂
    refine (inv₂.clients device).setVault ?_
    intro isBound
    have isReady := (ready isBound).mono (relied₁.rows.trans relied₂.rows)
    have sameClient := relied₁.trans relied₂
    refine ⟨rfl, records_persistConfiguredVault enabled ?_, ?_⟩
    · intro vault found
      have found₂ : (s₂.clients device).vaults config.vaultId = some vault := by
        rw [relied₂.client]
        exact found
      refine ⟨(((inv₂.clients device).binding isBound).row found₂).2, isReady.row ?_⟩
      rw [← sameClient.client]
      exact found₂
    · intro w d isNamed
      rw [atKey isBound, sameClient.client] at isNamed
      obtain ⟨rfl, rfl⟩ := isReady.names isNamed
      left
      cases (s₁.clients device).vaults config.vaultId <;> exact ⟨rfl, rfl⟩
  · intro s₂ relied₂ inv₂
    have sameClient := (relied₁.trans relied₂).client
    refine Prog.Holds.returns ⟨relied₁.rows.trans relied₂.rows, opens, ?_, ?_, ?_⟩
    · simp [Client.perform, Client.setVaults, sameClient]
    · simp [Client.perform, Client.setVaults, sameClient]
    · intro isBound
      have isReady := (ready isBound).mono (relied₁.rows.trans relied₂.rows)
      simp only [setClient_client, setClient_rows, Client.perform, atKey isBound, sameClient]
      refine ⟨isReady.device, isReady.workspace, isReady.names, ?_⟩
      intro vault found
      simp only [Client.setVaults, update_self, Option.some.injEq] at found
      subst found
      left
      cases (s₁.clients device).vaults config.vaultId <;> exact ⟨rfl, rfl⟩

theorem configFileFromRuntime_ok {file : ConfigFile}
    (isFile : configFileFromRuntime config enabled = .ok file) :
    file.vaultId = trim config.vaultId ∧
      file.remoteWorkspaceId = trim config.remoteWorkspaceId ∧
      file.deviceId = trim config.deviceId := by
  simp only [configFileFromRuntime] at isFile
  repeat' split at isFile
  all_goals cases isFile
  exact ⟨rfl, rfl, rfl⟩

variable {client : Client}

theorem names_writeSyncConfig {rootPath : String} {file : ConfigFile} {v w d : String}
    (isNamed : (client.perform (.writeSyncConfig rootPath file)).2.Names v w d) :
    client.Names v w d ∨ (v = file.vaultId ∧ w = file.remoteWorkspaceId ∧ d = file.deviceId) := by
  rcases isNamed with byStatus | ⟨root, other, found, isV, isW, isD⟩
  · exact .inl (.inl byStatus)
  · simp only [Client.perform, update_apply] at found
    split at found
    · cases found
      exact .inr ⟨isV.symm, isW.symm, isD.symm⟩
    · exact .inl (.inr ⟨root, other, found, isV, isW, isD⟩)

theorem writeConfig_safe
    (fits : bound → (s.clients device).Fits s.rows config.vaultId config.remoteWorkspaceId
      config.deviceId) :
    Safely host named bound device (fun _ => True) (writeConfig config enabled)
      (fun _ s' => s.rows.Le s'.rows ∧
        (bound → (s'.clients device).Fits s'.rows config.vaultId config.remoteWorkspaceId
          config.deviceId)) s := by
  refine Prog.Holds.exceptThen trivial ?_
  intro file isFile
  obtain ⟨isV, isW, isD⟩ := configFileFromRuntime_ok isFile
  have fits' : ∀ s', s.Rely device s' → bound →
      (s'.clients device).Fits s'.rows config.vaultId config.remoteWorkspaceId config.deviceId := by
    intro s' relied isBound
    rw [relied.client]
    exact (fits isBound).mono relied.rows
  have isName : ∀ s', s.Rely device s' → s'.Inv host named bound → bound →
      file.vaultId = config.vaultId ∧ file.remoteWorkspaceId = config.remoteWorkspaceId ∧
        file.deviceId = config.deviceId := by
    intro s' relied inv isBound
    have isFit := fits' s' relied isBound
    rw [isV, isW, isD]
    exact ⟨trim_of_opens isFit.opens, (trim_of_workspace inv.rows isFit.workspace).1, isFit.device⟩
  rw [← Prog.bind_pure (store _)]
  refine holds_store ?_ (fun _ _ => trivial) ?_
  · intro s₁ relied₁ inv₁
    refine (inv₁.clients device).name (fits' s₁ relied₁) rfl rfl ?_
    intro v w d isNamed
    rcases names_writeSyncConfig isNamed with old | ⟨rfl, rfl, rfl⟩
    · exact .inl old
    · exact .inr (isName s₁ relied₁ inv₁)
  · intro s₁ relied₁ inv₁
    refine Prog.Holds.returns ⟨relied₁.rows, ?_⟩
    intro isBound
    have isFit := fits' s₁ relied₁ isBound
    obtain ⟨sameV, sameW, sameD⟩ := isName s₁ relied₁ inv₁ isBound
    simp only [setClient_client, setClient_rows]
    refine ⟨⟨⟨isFit.device, isFit.workspace, ?_, isFit.row⟩, isFit.slot⟩, isFit.opens⟩
    intro w d isNamed
    rcases names_writeSyncConfig isNamed with old | ⟨_, rfl, rfl⟩
    · exact isFit.names old
    · exact ⟨sameW, sameD⟩

variable {status : Status}

theorem names_setStatus {v w d : String}
    (isNamed : (client.perform (.setStatus status)).2.Names v w d) :
    client.Names v w d ∨ ∃ config, status.config = some config ∧ v = config.vaultId ∧
      w = config.remoteWorkspaceId ∧ d = config.deviceId := by
  rcases isNamed with ⟨config, isConfig, isV, isW, isD⟩ | byFile
  · exact .inr ⟨config, isConfig, isV.symm, isW.symm, isD.symm⟩
  · exact .inl (.inr byFile)

theorem Client.Good.setStatus {rows : Rows} (good : client.Good bound rows)
    (fits : bound → ∀ config, status.config = some config →
      client.Fits rows config.vaultId config.remoteWorkspaceId config.deviceId) :
    (client.perform (.setStatus status)).2.Good bound rows := by
  cases isConfig : status.config with
  | none =>
    refine good.forget rfl ?_ (fun h => h) (fun h => h)
    intro v w d isNamed
    rcases names_setStatus isNamed with old | ⟨config, isSome, _⟩
    · exact old
    · rw [isConfig] at isSome
      cases isSome
  | some config =>
    refine good.name (fun isBound => fits isBound config isConfig) rfl rfl ?_
    intro v w d isNamed
    rcases names_setStatus isNamed with old | ⟨config', isConfig', isName⟩
    · exact .inl old
    · rw [isConfig] at isConfig'
      cases isConfig'
      exact .inr fun _ => isName

/-- The status becomes one that fits. -/
theorem setStatus_safe (fits : bound → ∀ config, status.config = some config →
      (s.clients device).Fits s.rows config.vaultId config.remoteWorkspaceId config.deviceId) :
    Safely host named bound device (fun _ => True) (store (.setStatus status))
      (fun _ s' => (s'.clients device).status = status) s := by
  rw [← Prog.bind_pure (store _)]
  refine holds_store ?_ (fun _ _ => trivial) ?_
  · intro s₁ relied₁ inv₁
    refine (inv₁.clients device).setStatus ?_
    intro isBound config isConfig
    rw [relied₁.client]
    exact (fits isBound config isConfig).mono relied₁.rows
  · intro s₁ _ _
    exact Prog.Holds.returns (by simp [Client.perform])

/-- A key of the keychain that is no part of a binding. -/
theorem holds_keychain {β : Type} {stopped : World → Prop} {returned : β → World → Prop}
    {call : StoreCall} {f : call.Res → Program β}
    (same : ∀ client : Client, (client.perform call).2.status = client.status ∧
      (client.perform call).2.configFiles = client.configFiles ∧
      (client.perform call).2.vaults = client.vaults ∧
      (client.perform call).2.keychain.accountRootKeys = client.keychain.accountRootKeys ∧
      ∀ v key, (client.perform call).2.keychain.workspaceKeys v = some key →
        client.keychain.workspaceKeys v = some key)
    (stops : ∀ s', s.Rely device s' → stopped s')
    (continues : ∀ s', s.Rely device s' → s'.Inv host named bound →
      (f ((s'.clients device).perform call).1).Holds (context host named bound device)
        (Prog.ends stopped returned)
        (s'.setClient device ((s'.clients device).perform call).2)) :
    (store call >>= f).Holds (context host named bound device) (Prog.ends stopped returned) s := by
  refine holds_store ?_ stops continues
  intro s' _ inv
  obtain ⟨status, files, vaults, roots, slots⟩ := same (s'.clients device)
  refine (inv.clients device).forget roots ?_ (fun found => slots _ _ found) ?_
  · intro v w d isNamed
    simpa only [Client.Names, status, files] using isNamed
  · intro v vault found
    rwa [vaults] at found

theorem persistLocalKeys_safe {prepared : PreparedSyncConfig} {deviceId : String}
    (isPrepared : prepared.Of s.rows)
    (ready : bound → (s.clients device).Ready s.rows config.vaultId prepared.workspaceId deviceId) :
    Safely host named bound device (fun _ => True) (persistLocalKeys config prepared)
      (fun _ s' => bound →
        (s'.clients device).Keyed s'.rows config.vaultId prepared.workspaceId deviceId) s := by
  refine Prog.Holds.andThen (rememberAccount_safe isPrepared.unlocks fun _ _ => trivial) ?_
  intro _ s₁ keeps₁
  have ready₁ : bound → (s₁.clients device).Ready s₁.rows config.vaultId prepared.workspaceId
      deviceId :=
    fun isBound => ((ready isBound).mono keeps₁.rows).same keeps₁.client.status
      keeps₁.client.configFiles keeps₁.client.vaults
  have isKey₁ := isPrepared.key.mono keeps₁.rows
  -- what is left to do once the slot holds the workspace's key or nothing
  have finish : ∀ s₂ : World,
      (bound → (s₂.clients device).Keyed s₂.rows config.vaultId prepared.workspaceId deviceId) →
      Safely host named bound device (fun _ => True)
        (store (.rememberDeviceSigningKey config.vaultId prepared.deviceSigningKey))
        (fun _ s' => bound →
          (s'.clients device).Keyed s'.rows config.vaultId prepared.workspaceId deviceId) s₂ := by
    intro s₂ keyed₂
    rw [← Prog.bind_pure (store _)]
    refine holds_keychain (fun _ => ⟨rfl, rfl, rfl, rfl, fun _ _ h => h⟩) (fun _ _ => trivial) ?_
    intro s₃ relied₃ _
    refine Prog.Holds.returns fun isBound => ?_
    rw [setClient_client, setClient_rows, relied₃.client]
    exact ((keyed₂ isBound).mono relied₃.rows).same rfl rfl rfl fun h => h
  dsimp only
  split
  · refine holds_store ?_ (fun _ _ => trivial) ?_
    · intro s₂ relied₂ inv₂
      refine (inv₂.clients device).rememberWorkspaceKey ?_
      intro isBound w d isNamed
      rw [relied₂.client] at isNamed
      rw [((ready₁ isBound).names isNamed).1]
      exact isKey₁.mono relied₂.rows
    · intro s₂ relied₂ _
      have keyed₂ : bound → ((s₂.clients device).perform
          (.rememberWorkspaceKey config.vaultId prepared.workspaceKey)).2.Keyed s₂.rows
            config.vaultId prepared.workspaceId deviceId := by
        intro isBound
        rw [relied₂.client]
        refine ⟨((ready₁ isBound).mono relied₂.rows).same rfl rfl rfl, ?_⟩
        intro key slot
        simp only [Client.perform, Client.setWorkspaceKeys, update_self, Option.some.injEq] at slot
        subst slot
        exact isKey₁.mono relied₂.rows
      split
      · refine holds_keychain (fun _ => ⟨rfl, rfl, rfl, rfl, fun _ _ h => h⟩)
          (fun _ _ => trivial) ?_
        intro s₃ relied₃ _
        refine finish _ fun isBound => ?_
        rw [setClient_client, setClient_rows, relied₃.client, setClient_client]
        exact ((keyed₂ isBound).mono relied₃.rows).same rfl rfl rfl fun h => h
      · refine finish _ fun isBound => ?_
        rw [setClient_client, setClient_rows]
        exact keyed₂ isBound
  · have forgets : ∀ client : Client, ∀ v key,
        (client.perform (.forgetWorkspaceKey config.vaultId)).2.keychain.workspaceKeys v =
          some key → client.keychain.workspaceKeys v = some key := by
      intro client v key slot
      simp only [Client.perform, Client.setWorkspaceKeys, update_apply] at slot
      split at slot
      · cases slot
      · exact slot
    refine holds_keychain (fun client => ⟨rfl, rfl, rfl, rfl, forgets client⟩)
      (fun _ _ => trivial) ?_
    intro s₂ relied₂ _
    refine holds_keychain (fun _ => ⟨rfl, rfl, rfl, rfl, fun _ _ h => h⟩) (fun _ _ => trivial) ?_
    intro s₃ relied₃ _
    refine finish _ fun isBound => ?_
    rw [setClient_client, setClient_rows, relied₃.client, setClient_client, relied₂.client]
    have le₃ : s₁.rows.Le s₃.rows := relied₂.rows.trans relied₃.rows
    refine ⟨((ready₁ isBound).mono le₃).same rfl rfl rfl, ?_⟩
    intro key slot
    simp [Client.perform, Client.setWorkspaceKeys, Client.setPassphrases] at slot

/-! ## The commands -/

/-- `sync_configure_vault` is called for a vault that nothing names and whose row has not
been synced, or for the workspace its row names, with its device reusable. -/
def ConfigureOk (client : Client) (config : VaultConfig) : Prop :=
  ((∀ w d, ¬ client.Names config.vaultId w d) ∧
    ∀ vault, client.vaults config.vaultId = some vault → Unsynced vault) ∨
  ∃ vault, client.vaults config.vaultId = some vault ∧
    vault.remoteWorkspaceId = trim config.remoteWorkspaceId ∧
    trim config.remoteWorkspaceId ≠ "" ∧
    nonEmptyTrimmed vault.deviceId = some vault.deviceId ∧
    (client.keychain.deviceSigningKeys config.vaultId).isSome ∧
    ∀ w d, client.Names config.vaultId w d → w = vault.remoteWorkspaceId ∧ d = vault.deviceId

variable {entropy : Entropy}

/-- The vault can be bound to what the probe has prepared. -/
theorem probeSyncConfig_safe (isOk : bound → ConfigureOk (s.clients device) config) :
    Safely host named bound device (fun _ => True) (probeSyncConfig host entropy config)
      (fun prepared s' => prepared.Of s'.rows ∧
        (bound → (s'.clients device).Ready s'.rows config.vaultId prepared.workspaceId
          prepared.deviceId)) s := by
  refine Prog.Holds.exceptThen trivial ?_
  intro _ _
  -- a vault that nothing binds is ready for anything
  have free : ∀ s' : World, s.Keeps device s' →
      (∀ w d, ¬ (s.clients device).Names config.vaultId w d) →
      (∀ vault, (s.clients device).vaults config.vaultId = some vault → Unsynced vault) →
      ∀ prepared : PreparedSyncConfig, prepared.Of s'.rows →
        (s'.clients device).Ready s'.rows config.vaultId prepared.workspaceId
          prepared.deviceId := by
    intro s' keeps noName unsynced prepared isPrepared
    obtain ⟨workspace, member, isId, _⟩ := isPrepared.key
    refine ⟨isPrepared.device, ⟨workspace, member, isId⟩, ?_, ?_⟩
    · intro w d isNamed
      exact absurd (keeps.client.names.mp isNamed) (noName w d)
    · intro vault found
      rw [keeps.client.vaults] at found
      exact .inr (unsynced vault found)
  split
  · rename_i isNew
    refine (prepareNewWorkspace_safe fun _ _ => trivial).mono ?_
    intro answer s₁ reached
    cases answer with
    | error error => trivial
    | ok prepared =>
      obtain ⟨keeps₁, isPrepared⟩ := reached
      refine ⟨isPrepared, ?_⟩
      intro isBound
      rcases isOk isBound with ⟨noName, unsynced⟩ | ⟨_, _, _, isOld, _⟩
      · exact free s₁ keeps₁ noName unsynced prepared isPrepared
      · exact absurd isNew isOld
  · refine Prog.Holds.exceptThen trivial ?_
    intro _ _
    refine holds_read (fun _ => rfl) (fun _ _ => trivial) ?_
    intro s₁ relied₁ _
    refine (prepareExistingWorkspace_safe fun _ _ => trivial).mono ?_
    intro answer s₂ reached
    cases answer with
    | error error => trivial
    | ok prepared =>
      obtain ⟨later₂, isPrepared, isWorkspace, reuses⟩ := reached
      have keeps₂ := relied₁.keeps.trans later₂
      refine ⟨isPrepared, ?_⟩
      intro isBound
      rcases isOk isBound with ⟨noName, unsynced⟩ |
        ⟨vault, found, sameWorkspace, _, isDevice, hasSigning, names⟩
      · exact free s₂ keeps₂ noName unsynced prepared isPrepared
      · have isReusable : reusableDeviceIdForWorkspace prepared.workspaceId config.deviceId
            ((s₁.clients device).perform (.getVault config.vaultId)).1 = some vault.deviceId := by
          simp only [Client.perform, relied₁.client, found, reusableDeviceIdForWorkspace,
            sameWorkspace, isWorkspace, if_true]
          exact isDevice
        have sameDevice : prepared.deviceId = vault.deviceId := by
          refine reuses vault.deviceId isReusable ?_
          rw [relied₁.client]
          exact hasSigning
        obtain ⟨workspace, member, isId, _⟩ := isPrepared.key
        have isW : prepared.workspaceId = vault.remoteWorkspaceId :=
          isWorkspace.trans sameWorkspace.symm
        refine ⟨isPrepared.device, ⟨workspace, member, isId⟩, ?_, ?_⟩
        · intro w d isNamed
          obtain ⟨rfl, rfl⟩ := names w d (keeps₂.client.names.mp isNamed)
          exact ⟨isW.symm, sameDevice.symm⟩
        · intro vault' found'
          rw [keeps₂.client.vaults, found] at found'
          cases found'
          exact .inl ⟨isW.symm, sameDevice.symm⟩

theorem commitSyncConfigProbe_safe {prepared : PreparedSyncConfig} (isPrepared : prepared.Of s.rows)
    (sameWorkspace : config.remoteWorkspaceId = prepared.workspaceId)
    (ready : bound → (s.clients device).Ready s.rows config.vaultId config.remoteWorkspaceId
      config.deviceId) :
    Safely host named bound device (fun _ => True) (commitSyncConfigProbe config prepared)
      (fun _ s' => bound → (s'.clients device).Fits s'.rows config.vaultId
        config.remoteWorkspaceId config.deviceId) s := by
  refine Prog.Holds.andThen (persistVault_safe ready) ?_
  rintro _ s₁ ⟨le₁, opens, _, _, ready₁⟩
  have isPrepared₁ : prepared.Of s₁.rows :=
    ⟨isPrepared.unlocks.mono le₁, isPrepared.key.mono le₁, isPrepared.device⟩
  rw [sameWorkspace] at ready₁ ⊢
  refine Prog.Holds.andThen (persistLocalKeys_safe isPrepared₁ ready₁) ?_
  intro _ s₂ keyed₂
  rw [← sameWorkspace] at keyed₂ ⊢
  refine (writeConfig_safe fun isBound => ⟨keyed₂ isBound, opens⟩).mono ?_
  intro answer s₃ reached
  cases answer with
  | error error => trivial
  | ok _ => exact reached.2

theorem syncConfigureVault_safe (isOk : bound → ConfigureOk (s.clients device) config) :
    Safely host named bound device (fun _ => True) (syncConfigureVault host entropy config)
      (fun _ _ => True) s := by
  refine Prog.Holds.andThen (probeSyncConfig_safe isOk) ?_
  rintro prepared s₁ ⟨isPrepared, ready₁⟩
  refine Prog.Holds.andThen (commitSyncConfigProbe_safe isPrepared rfl ready₁) ?_
  intro _ s₂ fits₂
  refine Safely.any (setStatus_safe ?_)
  intro isBound config' isConfig
  cases isConfig
  exact fits₂ isBound

theorem clearCurrentWorkspaceBinding_safe :
    Safely host named bound device (fun _ => True) (clearCurrentWorkspaceBinding config)
      (fun _ _ => True) s := by
  simp only [clearCurrentWorkspaceBinding]
  split
  · exact Prog.Holds.throws trivial
  rename_i vaultId _
  have forgets : ∀ client : Client, ∀ v key,
      (client.perform (.forgetWorkspaceKey vaultId)).2.keychain.workspaceKeys v = some key →
        client.keychain.workspaceKeys v = some key := by
    intro client v key slot
    simp only [Client.perform, Client.setWorkspaceKeys, update_apply] at slot
    split at slot
    · cases slot
    · exact slot
  refine holds_keychain (fun client => ⟨rfl, rfl, rfl, rfl, forgets client⟩) (fun _ _ => trivial) ?_
  intro s₁ _ _
  refine holds_keychain (fun _ => ⟨rfl, rfl, rfl, rfl, fun _ _ h => h⟩) (fun _ _ => trivial) ?_
  intro s₂ _ _
  refine holds_keychain (fun _ => ⟨rfl, rfl, rfl, rfl, fun _ _ h => h⟩) (fun _ _ => trivial) ?_
  intro s₃ _ _
  have finish : ∀ s' : World, Safely host named bound device (fun _ => True) (do
      Prog.ofExcept (openSyncDbForVault vaultId)
      let _ : Unit ← store (.deleteVault vaultId)
      store (.setStatus ⟨none, false⟩)) (fun _ _ => True) s' := by
    intro s'
    refine Prog.Holds.exceptThen trivial ?_
    intro _ _
    refine holds_store ?_ (fun _ _ => trivial) ?_
    · intro s₄ _ inv₄
      refine (inv₄.clients device).forget rfl (fun h => h) (fun h => h) ?_
      intro v vault found
      simp only [Client.perform, Client.setVaults, update_apply] at found
      split at found
      · cases found
      · exact found
    · intro s₄ _ _
      refine Safely.any (setStatus_safe ?_)
      intro _ config' isConfig
      cases isConfig
  split
  · refine holds_store ?_ (fun _ _ => trivial) fun s₄ _ _ => finish _
    intro s₄ _ inv₄
    refine (inv₄.clients device).forget rfl ?_ (fun h => h) (fun h => h)
    intro v w d isNamed
    rcases isNamed with byStatus | ⟨root, file, found, isName⟩
    · exact .inl byStatus
    · simp only [Client.perform, update_apply] at found
      split at found
      · cases found
      · exact .inr ⟨root, file, found, isName⟩
  · exact finish _

theorem syncDisconnectVault_safe :
    Safely host named bound device (fun _ => True) syncDisconnectVault (fun _ _ => True) s := by
  refine holds_read (fun _ => rfl) (fun _ _ => trivial) ?_
  intro s₁ _ _
  split
  · exact Prog.Holds.returns trivial
  · exact clearCurrentWorkspaceBinding_safe

theorem restoreVaultConfigForRoot_safe {rootPath : String} :
    Safely host named bound device (fun _ => True) (restoreVaultConfigForRoot rootPath)
      (fun _ _ => True) s := by
  refine holds_read (fun _ => rfl) (fun _ _ => trivial) ?_
  intro s₁ _ inv₁
  split
  · refine Safely.any (setStatus_safe ?_)
    intro _ config isConfig
    cases isConfig
  · rename_i file found
    have fits : bound → (s₁.clients device).Fits s₁.rows file.vaultId file.remoteWorkspaceId
        file.deviceId :=
      fun isBound => ((inv₁.clients device).binding isBound).fits
        (.inr ⟨rootPath, file, found, rfl, rfl, rfl⟩)
    refine Prog.Holds.andThen (persistVault_safe fun isBound => (fits isBound).toReady) ?_
    rintro _ s₂ ⟨le₂, opens, _, sameKeychain, ready₂⟩
    refine Safely.any (setStatus_safe ?_)
    intro isBound config isConfig
    cases isConfig
    refine ⟨⟨ready₂ isBound, ?_⟩, opens⟩
    intro key slot
    rw [sameKeychain] at slot
    exact ((fits isBound).slot slot).mono le₂

theorem configFromStatus_ok {config config' : VaultConfig}
    (isConfig : configFromStatus config = .ok config') :
    config'.vaultId = trim config.vaultId ∧
      config'.remoteWorkspaceId = trim config.remoteWorkspaceId ∧
      config'.deviceId = trim config.deviceId := by
  have required : ∀ {value field result : String}, requiredStatusValue value field = .ok result →
      result = trim value := by
    intro value field result isResult
    simp only [requiredStatusValue] at isResult
    split at isResult <;> cases isResult
    rename_i isTrimmed
    exact (nonEmptyTrimmed_some isTrimmed).1
  simp only [configFromStatus, bind, Except.bind, pure, Except.pure] at isConfig
  repeat' split at isConfig
  all_goals cases isConfig
  rename_i isV _ _ _ _ _ isW _ _ isD
  exact ⟨required isV, required isW, required isD⟩

/-- The row and the file are written as the status says. -/
theorem persistRuntimeStatus_safe (isStatus : (s.clients device).status.config = status.config)
    (inv : s.Inv host named bound) :
    Safely host named bound device (fun _ => True) (persistRuntimeStatus status)
      (fun _ _ => True) s := by
  simp only [persistRuntimeStatus]
  split
  · exact Prog.Holds.returns trivial
  · rename_i config isConfig
    refine Prog.Holds.exceptThen trivial ?_
    intro config' isConfig'
    have fits : bound → (s.clients device).Fits s.rows config'.vaultId config'.remoteWorkspaceId
        config'.deviceId := by
      intro isBound
      have isFit := ((inv.clients device).binding isBound).fits
        (.inl ⟨config, isStatus.trans isConfig, rfl, rfl, rfl⟩)
      obtain ⟨isV, isW, isD⟩ := configFromStatus_ok isConfig'
      rw [isV, isW, isD, trim_of_opens isFit.opens, isFit.device,
        (trim_of_workspace inv.rows isFit.workspace).1]
      exact isFit
    refine Prog.Holds.andThen (persistVault_safe fun isBound => (fits isBound).toReady) ?_
    rintro _ s₁ ⟨le₁, opens, _, sameKeychain, ready₁⟩
    refine Safely.any (writeConfig_safe fun isBound => ⟨⟨ready₁ isBound, ?_⟩, opens⟩)
    intro key slot
    rw [sameKeychain] at slot
    exact ((fits isBound).slot slot).mono le₁

theorem setStatus_then {config config' : VaultConfig}
    (isBefore : (s.clients device).status.config = some config)
    (isAfter : status.config = some config')
    (same : config'.vaultId = config.vaultId ∧
      config'.remoteWorkspaceId = config.remoteWorkspaceId ∧ config'.deviceId = config.deviceId) :
    Safely host named bound device (fun _ => True)
      (do
        let _ : Unit ← store (.setStatus status)
        persistRuntimeStatus status) (fun _ _ => True) s := by
  obtain ⟨sameV, sameW, sameD⟩ := same
  have good : ∀ s', s.Rely device s' → s'.Inv host named bound →
      ((s'.clients device).perform (.setStatus status)).2.Good bound s'.rows := by
    intro s' relied inv'
    refine (inv'.clients device).setStatus ?_
    intro isBound config'' isConfig
    rw [isAfter] at isConfig
    cases isConfig
    rw [sameV, sameW, sameD]
    refine ((inv'.clients device).binding isBound).fits (.inl ⟨config, ?_, rfl, rfl, rfl⟩)
    rw [relied.client]
    exact isBefore
  refine holds_store good (fun _ _ => trivial) ?_
  intro s₁ relied₁ inv₁
  refine persistRuntimeStatus_safe ?_ (inv₁.setClient (good s₁ relied₁ inv₁))
  rw [setClient_client]
  rfl

theorem syncSetEnabled_safe :
    Safely host named bound device (fun _ => True) (syncSetEnabled enabled) (fun _ _ => True) s := by
  refine holds_read (fun _ => rfl) (fun _ _ => trivial) ?_
  intro s₁ _ _
  split
  · exact Prog.Holds.throws trivial
  · rename_i config isConfig
    exact setStatus_then isConfig rfl ⟨rfl, rfl, rfl⟩

theorem syncListWorkspaces_safe {passphrase : Option String} :
    Safely host named bound device (fun _ => True) (syncListWorkspaces host passphrase)
      (fun _ _ => True) s := by
  refine holds_read (fun _ => rfl) (fun _ _ => trivial) ?_
  intro s₁ _ _
  refine Prog.Holds.andThen (listAccountWorkspaces_safe fun _ _ => trivial) ?_
  exact fun _ _ _ => Prog.Holds.returns trivial

theorem syncCreateWorkspace_safe {request : CreateWorkspaceRequest} :
    Safely host named bound device (fun _ => True) (syncCreateWorkspace host entropy request)
      (fun _ _ => True) s := by
  refine holds_read (fun _ => rfl) (fun _ _ => trivial) ?_
  intro s₁ _ _
  refine Prog.Holds.andThen (createAccountWorkspace_safe fun _ _ => trivial) ?_
  exact fun _ _ _ => Prog.Holds.returns trivial

theorem syncRenameWorkspace_safe {request : RenameWorkspaceRequest}
    (canonical : named → request.Canonical host) :
    Safely host named bound device (fun _ => True) (syncRenameWorkspace host request)
      (fun _ _ => True) s := by
  refine holds_read (fun _ => rfl) (fun _ _ => trivial) ?_
  intro s₁ _ _
  refine Prog.Holds.andThen (renameAccountWorkspace_safe canonical fun _ _ => trivial) ?_
  intro summary s₂ _
  refine holds_read (fun _ => rfl) (fun _ _ => trivial) ?_
  intro s₃ _ _
  split
  · exact Prog.Holds.returns trivial
  · rename_i config isConfig
    split
    · exact setStatus_then isConfig rfl ⟨rfl, rfl, rfl⟩
    · exact Prog.Holds.returns trivial

theorem syncDeleteWorkspace_safe {workspaceId : String} :
    Safely host named bound device (fun _ => True) (syncDeleteWorkspace workspaceId)
      (fun _ _ => True) s := by
  refine Prog.Holds.exceptThen trivial ?_
  intro id _
  refine holds_read (fun _ => rfl) (fun _ _ => trivial) ?_
  intro s₁ _ _
  refine holds_server (fun _ _ _ => trivial) (fun _ _ => trivial) ?_
  intro s₂ _ _ _ _ _
  split
  · exact Prog.Holds.returns trivial
  · split
    · exact clearCurrentWorkspaceBinding_safe
    · exact Prog.Holds.returns trivial

end Binding

end Kuku.Account
