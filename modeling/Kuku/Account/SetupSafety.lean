/-
# Account.SetupSafety -- the set-up programs make sound calls

One lemma for each program of `Account.Workspaces`: among any other desktops, each of its
calls may be made, and if it returns, what it returns is true of the rows: the account key
is the account's, the workspace key is the workspace's.  None of them touches the binding
of a vault (`World.Keeps`).
-/
import Kuku.Account.Invariant

namespace Kuku.Account

open Kuku.Theory Kuku.Sync List Option Text

structure Client.SameBinding (a b : Client) : Prop where
  status : b.status = a.status
  configFiles : b.configFiles = a.configFiles
  vaults : b.vaults = a.vaults
  workspaceKeys : b.keychain.workspaceKeys = a.keychain.workspaceKeys
  deviceSigningKeys : b.keychain.deviceSigningKeys = a.keychain.deviceSigningKeys

/-- The rows have grown and this desktop's bindings are the same. -/
structure World.Keeps (device : Nat) (a b : World) : Prop where
  client : (a.clients device).SameBinding (b.clients device)
  rows : a.rows.Le b.rows

section Keeps

variable {device : Nat} {a b c : World}

theorem World.Rely.keeps (relied : a.Rely device b) : a.Keeps device b := by
  refine ⟨?_, relied.rows⟩
  rw [relied.client]
  exact ⟨rfl, rfl, rfl, rfl, rfl⟩

theorem World.Keeps.refl (device : Nat) (world : World) : world.Keeps device world :=
  (World.Rely.refl device world).keeps

theorem World.Keeps.trans (first : a.Keeps device b) (second : b.Keeps device c) :
    a.Keeps device c :=
  ⟨⟨second.client.status.trans first.client.status,
    second.client.configFiles.trans first.client.configFiles,
    second.client.vaults.trans first.client.vaults,
    second.client.workspaceKeys.trans first.client.workspaceKeys,
    second.client.deviceSigningKeys.trans first.client.deviceSigningKeys⟩,
    first.rows.trans second.rows⟩

theorem World.Keeps.setClient {client : Client} (same : (a.clients device).SameBinding client) :
    a.Keeps device (a.setClient device client) := by
  refine ⟨?_, Rows.Le.refl _⟩
  rw [World.setClient_client]
  exact same

end Keeps

section Good

variable {rows : Rows} {bound : Prop} {client other : Client}

theorem Client.SameBinding.names (same : client.SameBinding other) {v w d : String} :
    other.Names v w d ↔ client.Names v w d := by
  simp only [Client.Names, same.status, same.configFiles]

theorem Client.Binding.same (binding : client.Binding rows) (same : client.SameBinding other) :
    other.Binding rows := by
  refine ⟨fun named => binding.text (same.names.mp named),
    fun first second => binding.agree (same.names.mp first) (same.names.mp second), ?_, ?_, ?_⟩
  · intro v w d key named slot
    rw [same.workspaceKeys] at slot
    exact binding.slot (same.names.mp named) slot
  · intro v vault found
    rw [same.vaults] at found
    exact binding.row found
  · intro v w d vault named found
    rw [same.vaults] at found
    exact binding.compatible (same.names.mp named) found

/-- Stores that are not part of a binding. -/
theorem Client.Good.same (good : client.Good bound rows) (same : client.SameBinding other)
    (sameRoots : other.keychain.accountRootKeys = client.keychain.accountRootKeys) :
    other.Good bound rows :=
  ⟨fun found => good.root (sameRoots ▸ found), fun isBound => (good.binding isBound).same same⟩

theorem Client.Good.rememberAccountRootKey (good : client.Good bound rows) {id : String}
    {key : SymmetricKey} (unlocks : rows.Unlocks id key) :
    (client.perform (.rememberAccountRootKey id key)).2.Good bound rows := by
  refine ⟨?_, fun isBound => (good.binding isBound).same ⟨rfl, rfl, rfl, rfl, rfl⟩⟩
  intro id' key' found
  simp only [Client.perform, Client.setAccountRootKeys, Function.update_apply] at found
  split at found
  · rename_i sameId
    cases found
    rw [sameId]
    exact unlocks
  · exact good.root found

end Good

/-! ## What the functions compute -/

theorem nonEmptyTrimmed_some {value trimmed : String} (some : nonEmptyTrimmed value = some trimmed) :
    trimmed = trim value ∧ trimmed ≠ "" := by
  simp only [nonEmptyTrimmed] at some
  split at some <;> cases some
  rename_i notEmpty
  exact ⟨rfl, notEmpty⟩

theorem hexDigit_solid : ∀ n < 16, isSpace (hexDigit n) = false := by
  decide

theorem trim_randomAccountKeyId (bytes : BitVec 128) :
    trim (randomAccountKeyId bytes) = randomAccountKeyId bytes := by
  apply trim_eq_self
  intro c member
  simp only [randomAccountKeyId, String.toList_append, String.toList_ofList, mem_append,
    List.mem_map] at member
  rcases member with fixed | ⟨i, _, rfl⟩
  · have solid : "account_".toList.all (fun c => !Text.isSpace c) = true := by decide +kernel
    simpa using List.all_eq_true.mp solid c fixed
  · exact hexDigit_solid _ (Nat.mod_lt _ (by decide))

theorem trim_newAccountKeyId (accountKeyId : Option String) (entropy : Entropy) :
    trim (newAccountKeyId accountKeyId entropy) = newAccountKeyId accountKeyId entropy := by
  simp only [newAccountKeyId]
  cases given : accountKeyId.bind nonEmptyTrimmed with
  | none => exact trim_randomAccountKeyId _
  | some trimmed =>
    obtain ⟨value, _, isTrimmed⟩ := bind_eq_some_iff.mp given
    rw [getD_some, (nonEmptyTrimmed_some isTrimmed).1, trim_trim]

variable {envelope : AccountKeyEnvelope} {host : Host} {root : SymmetricKey}

theorem unwrapAccountRootKey_ok {phrase : String}
    (unwrapped : unwrapAccountRootKey host envelope phrase = .ok root) :
    envelope.accountRootKey = root := by
  simp only [unwrapAccountRootKey, bind, Except.bind] at unwrapped
  split at unwrapped
  · cases unwrapped
  · split at unwrapped <;> cases unwrapped
    rfl

theorem unwrapAccountRootKey_of_phrase {phrase : String}
    (isPhrase : requireRecoveryPhrase host phrase = .ok envelope.phrase) :
    unwrapAccountRootKey host envelope phrase = .ok envelope.accountRootKey := by
  simp [unwrapAccountRootKey, isPhrase, bind, Except.bind]

theorem wrapAccountRootKey_ok {accountKeyId phrase : String}
    (wrapped : wrapAccountRootKey host accountKeyId root phrase = .ok envelope) :
    envelope.accountKeyId = accountKeyId ∧ envelope.accountRootKey = root ∧
      requireRecoveryPhrase host phrase = .ok envelope.phrase := by
  simp only [wrapAccountRootKey, Except.map] at wrapped
  split at wrapped <;> cases wrapped
  rename_i normalized isNormalized
  exact ⟨rfl, rfl, isNormalized⟩

theorem decrypt_ok {Aad α : Type} [DecidableEq Aad] {aad : Aad} {blob : Blob Aad α} {plaintext : α}
    (opened : blob.decrypt root aad = .ok plaintext) :
    blob.plaintext = plaintext := by
  simp only [Blob.decrypt] at opened
  split at opened <;> cases opened
  rfl

theorem workspaceKeyFromAccount_ok {account : PreparedAccountKey} {workspace : Workspace}
    {key : SymmetricKey} (opened : workspaceKeyFromAccount account workspace = .ok key) :
    ∃ blob, workspace.encryptedWorkspaceKey = some blob ∧ blob.plaintext = key := by
  simp only [workspaceKeyFromAccount] at opened
  split at opened
  · cases opened
  · rename_i blob stored
    split at opened
    · cases opened
    · exact ⟨blob, stored, decrypt_ok opened⟩

variable {rows : Rows}

theorem createAccountKey_ok (created : (rows.createAccountKey envelope).1 = .ok ()) :
    (rows.createAccountKey envelope).2.Unlocks (trim envelope.accountKeyId)
      envelope.accountRootKey := by
  simp only [Rows.createAccountKey] at created ⊢
  split at created
  · cases created
  · split at created
    · cases created
    · rename_i notEmpty noKey
      rw [if_neg notEmpty, if_neg noKey]
      exact ⟨_, rfl, rfl⟩

theorem updateWorkspaceKey_ok {workspaceId : String} {blob : Blob WorkspaceAad SymmetricKey}
    {version expected : Int} {workspace : Workspace}
    (stored : (rows.updateWorkspaceKey host workspaceId blob version expected).1 = .ok workspace) :
    ∃ id, host.parseUuid (trim workspaceId) = some id ∧
      (rows.updateWorkspaceKey host workspaceId blob version expected).2.KeyOf id
        blob.plaintext := by
  rcases Rows.updateVersioned_cases host rows "UpdateWorkspaceKey"
    "invalid sync argument: invalid workspace key version" workspaceId version expected
    (·.workspaceKeyVersion) fun workspace =>
      { workspace with encryptedWorkspaceKey := some blob, workspaceKeyVersion := version } with
    ⟨error, same⟩ | ⟨before, _, _, parsed, _, _, _, written⟩
  · simp only [Rows.updateWorkspaceKey, same] at stored
    cases stored
  · simp only [Rows.updateWorkspaceKey, written]
    exact ⟨before.workspaceId, parsed, _, Rows.mem_put.mpr (.inl rfl), rfl, blob, rfl, rfl⟩

/-- The device that is renamed is the one the id stands for. -/
theorem updateDeviceMetadata_ok {workspaceId deviceId : String} {blob : Blob DeviceAad String}
    {version expected : Int} {device : Device}
    (renamed : (rows.updateDeviceMetadata host workspaceId deviceId blob version expected).1 =
      .ok device) : host.parseUuid (trim deviceId) = some device.deviceId := by
  simp only [Rows.updateDeviceMetadata] at renamed
  split at renamed
  · cases renamed
  · split at renamed
    · cases renamed
    · split at renamed
      · cases renamed
      · rename_i id parsed
        split at renamed
        · cases renamed
        · rename_i found isFound
          split at renamed <;> cases renamed
          have isId := find?_some isFound
          simp only [decide_eq_true_eq] at isId
          rw [parsed, isId.1]

theorem seals_of_unlocks {α : Type} {account : PreparedAccountKey} {workspaceId id : String}
    {version : Int} (plaintext : α)
    (unlocks : rows.Unlocks account.accountKeyId account.accountRootKey) (sameId : id = workspaceId)
    (positive : 0 < version) :
    rows.Seals id version
      (some ⟨account.accountRootKey, workspaceAad account workspaceId version, plaintext⟩) := by
  obtain ⟨envelope, stored, isRoot⟩ := unlocks
  exact ⟨positive, account.accountKeyId, envelope, stored, isRoot.symm, by rw [sameId]; rfl⟩

/-- An id the server minted stands for itself. -/
theorem parse_mint {id : String} {n : Nat}
    (parsed : host.parseUuid (trim (host.mint n)) = some id) : id = host.mint n := by
  rw [host.trim_mint, host.parseUuid_mint] at parsed
  exact (Option.some.inj parsed).symm

theorem trim_reusable {workspaceId configDeviceId reusable : String}
    {localVault : Option SyncVaultRecord}
    (isReusable : reusableDeviceIdForWorkspace workspaceId configDeviceId localVault =
      some reusable) : trim reusable = reusable := by
  simp only [reusableDeviceIdForWorkspace] at isReusable
  split at isReusable
  · split at isReusable
    · rw [(nonEmptyTrimmed_some isReusable).1, trim_trim]
    · cases isReusable
  · rw [(nonEmptyTrimmed_some isReusable).1, trim_trim]

/-! ## The programs -/

section Programs

variable {host : Host} {named bound : Prop} {device : Nat} {s : World} {stopped : World → Prop}

/-- A program of this desktop, among the others. -/
abbrev Safely (host : Host) (named bound : Prop) (device : Nat) (stopped : World → Prop) {α : Type}
    (program : Program α) (returned : α → World → Prop) (s : World) : Prop :=
  program.Holds (context host named bound device) (Prog.ends stopped returned) s

theorem unlockAccountRootKey_safe {accountKeyId phrase : String}
    (stops : ∀ s', s.Keeps device s' → stopped s') :
    Safely host named bound device stopped (unlockAccountRootKey host accountKeyId phrase)
      (fun root s' => s.Keeps device s' ∧ s'.rows.Unlocks accountKeyId root) s := by
  refine holds_server (fun _ _ _ => trivial) (fun s' relied => stops s' relied.keeps) ?_
  intro s' envelopes relied inv answered _
  cases answered
  have keeps : s.Keeps device s' := relied.keeps
  split
  · exact Prog.Holds.throws (stops s' keeps)
  · rename_i envelope found
    refine Prog.Holds.ofExcept (fun _ _ => stops s' keeps) ?_
    intro root unwrapped
    have isId := find?_some found
    have member := mem_of_find?_eq_some found
    simp only [List.mem_map, mem_toList, Prod.exists, exists_eq_right,
      decide_eq_true_eq] at isId member
    obtain ⟨id, stored⟩ := member
    have sameId : id = accountKeyId := (inv.rows.account id envelope stored).1.symm.trans isId
    exact ⟨keeps, envelope, sameId ▸ stored, unwrapAccountRootKey_ok unwrapped⟩

variable {account : PreparedAccountKey}

theorem rememberAccount_safe (unlocks : s.rows.Unlocks account.accountKeyId account.accountRootKey)
    (stops : ∀ s', s.Keeps device s' → stopped s') :
    Safely host named bound device stopped (rememberAccount account)
      (fun _ s' => s.Keeps device s') s := by
  refine holds_store ?_ (fun s' relied => stops s' relied.keeps) ?_
  · intro s' relied inv
    exact (inv.clients device).rememberAccountRootKey (unlocks.mono relied.rows)
  · intro s' relied inv
    have keeps : s.Keeps device (s'.setClient device ((s'.clients device).perform
        (.rememberAccountRootKey account.accountKeyId account.accountRootKey)).2) :=
      relied.keeps.trans (World.Keeps.setClient ⟨rfl, rfl, rfl, rfl, rfl⟩)
    split
    · refine holds_store ?_ (fun s'' later => stops s'' (keeps.trans later.keeps)) ?_
      · intro s'' _ inv''
        exact (inv''.clients device).same ⟨rfl, rfl, rfl, rfl, rfl⟩ rfl
      · intro s'' later _
        exact Prog.Holds.returns ((keeps.trans later.keeps).trans
          (World.Keeps.setClient ⟨rfl, rfl, rfl, rfl, rfl⟩))
    · exact Prog.Holds.returns keeps

variable {entropy : Entropy}

theorem prepareAccountKey_safe {accountKeyId passphrase : Option String}
    (stops : ∀ s', s.Keeps device s' → stopped s') :
    Safely host named bound device stopped
      (prepareAccountKey host entropy accountKeyId passphrase)
      (fun account s' => s.Keeps device s' ∧
        s'.rows.Unlocks account.accountKeyId account.accountRootKey) s := by
  refine holds_server (fun _ _ _ => trivial) (fun s' relied => stops s' relied.keeps) ?_
  intro s₁ existing relied₁ inv₁ answered₁ grows₁
  have keeps₁ := (relied₁.trans grows₁).keeps
  cases existing with
  | some id =>
    refine holds_read (fun _ => rfl) (fun s' relied => stops s' (keeps₁.trans relied.keeps)) ?_
    intro s₂ relied₂ inv₂
    have keeps₂ := keeps₁.trans relied₂.keeps
    cases remembered : ((s₂.clients device).perform (.readAccountRootKey id)).1 with
    | some root =>
      exact Prog.Holds.returns ⟨keeps₂, (inv₂.clients device).root remembered⟩
    | none =>
      refine Prog.Holds.exceptThen (stops _ keeps₂) ?_
      intro phrase _
      refine Prog.Holds.andThen (unlockAccountRootKey_safe
        fun s' later => stops s' (keeps₂.trans later)) ?_
      intro root s₃ ⟨keeps₃, unlocks⟩
      exact Prog.Holds.returns ⟨keeps₂.trans keeps₃, unlocks⟩
  | none =>
    refine Prog.Holds.exceptThen (stops _ keeps₁) ?_
    intro phrase _
    refine Prog.Holds.exceptThen (stops _ keeps₁) ?_
    intro envelope wrapped
    obtain ⟨isId, isRoot, isPhrase⟩ := wrapAccountRootKey_ok wrapped
    refine holds_server (fun _ _ _ => ⟨_, isPhrase⟩)
      (fun s' relied => stops s' (keeps₁.trans relied.keeps)) ?_
    intro s₂ _ relied₂ _ created grows₂
    refine Prog.Holds.returns ⟨(keeps₁.trans relied₂.keeps).trans grows₂.keeps, ?_⟩
    have unlocks := createAccountKey_ok created
    rw [isId, isRoot, trim_newAccountKeyId] at unlocks
    exact unlocks

theorem unlockExistingAccountKey_safe {recoveryPhrase : Option String}
    (stops : ∀ s', s.Keeps device s' → stopped s') :
    Safely host named bound device stopped (unlockExistingAccountKey host recoveryPhrase)
      (fun account s' => s.Keeps device s' ∧ ∀ unlocked, account = some unlocked →
        s'.rows.Unlocks unlocked.accountKeyId unlocked.accountRootKey) s := by
  refine holds_server (fun _ _ _ => trivial) (fun s' relied => stops s' relied.keeps) ?_
  intro s₁ existing relied₁ inv₁ answered₁ grows₁
  have keeps₁ := (relied₁.trans grows₁).keeps
  cases existing with
  | none => exact Prog.Holds.returns ⟨keeps₁, by simp⟩
  | some id =>
    refine holds_read (fun _ => rfl) (fun s' relied => stops s' (keeps₁.trans relied.keeps)) ?_
    intro s₂ relied₂ inv₂
    have keeps₂ := keeps₁.trans relied₂.keeps
    cases remembered : ((s₂.clients device).perform (.readAccountRootKey id)).1 with
    | some root =>
      refine Prog.Holds.returns ⟨keeps₂, ?_⟩
      rintro _ ⟨⟩
      exact (inv₂.clients device).root remembered
    | none =>
      dsimp only
      split
      · exact Prog.Holds.throws (stops _ keeps₂)
      · rename_i phrase _
        refine Prog.Holds.andThen (unlockAccountRootKey_safe
          fun s' later => stops s' (keeps₂.trans later)) ?_
        intro root s₃ ⟨later₃, unlocks⟩
        have keeps₃ := keeps₂.trans later₃
        refine Prog.Holds.andThen (rememberAccount_safe unlocks
          fun s' later => stops s' (keeps₃.trans later)) ?_
        intro _ s₄ keeps₄
        refine Prog.Holds.returns ⟨keeps₃.trans keeps₄, ?_⟩
        rintro _ ⟨⟩
        exact unlocks.mono keeps₄.rows

theorem putAccountWorkspaceMetadata_safe {n : Nat} {name : String} {key : SymmetricKey}
    (unlocks : s.rows.Unlocks account.accountKeyId account.accountRootKey)
    (stops : ∀ s', s.Keeps device s' → stopped s') :
    Safely host named bound device stopped
      (putAccountWorkspaceMetadata account (host.mint n) name key)
      (fun _ s' => s.Keeps device s' ∧ s'.rows.KeyOf (host.mint n) key) s := by
  refine holds_server ?_ (fun s' relied => stops s' relied.keeps) ?_
  · intro s' relied _ _ id parsed positive
    exact seals_of_unlocks _ (unlocks.mono relied.rows) (parse_mint parsed) positive
  intro s₁ _ relied₁ _ _ grows₁
  have keeps₁ := (relied₁.trans grows₁).keeps
  refine holds_server ?_ (fun s' relied => stops s' (keeps₁.trans relied.keeps)) ?_
  · intro s' relied _
    refine ⟨rfl, ?_⟩
    intro id parsed positive
    exact seals_of_unlocks _ (unlocks.mono (keeps₁.rows.trans relied.rows)) (parse_mint parsed)
      positive
  intro s₂ _ relied₂ _ stored grows₂
  refine Prog.Holds.returns ⟨(keeps₁.trans relied₂.keeps).trans grows₂.keeps, ?_⟩
  obtain ⟨id, parsed, isKey⟩ := updateWorkspaceKey_ok stored
  rw [parse_mint parsed] at isKey
  exact isKey

theorem workspaceById_safe {workspaceId : String} (stops : ∀ s', s.Keeps device s' → stopped s') :
    Safely host named bound device stopped (workspaceById workspaceId)
      (fun workspace s' => s.Keeps device s' ∧ workspace ∈ s'.rows.workspaces ∧
        workspace.workspaceId = workspaceId) s := by
  refine holds_server (fun _ _ _ => trivial) (fun s' relied => stops s' relied.keeps) ?_
  intro s₁ _ relied₁ _ answered grows₁
  have keeps₁ := (relied₁.trans grows₁).keeps
  cases answered
  split
  · rename_i workspace found
    have isId := find?_some found
    have member := mem_of_find?_eq_some found
    simp only [Rows.live, mem_filter, decide_eq_true_eq] at isId member
    exact Prog.Holds.returns ⟨keeps₁, member.1, isId⟩
  · exact Prog.Holds.throws (stops _ keeps₁)

theorem registerDeviceWithName_safe {workspaceId name : String} {signingKey : SigningKey}
    (stops : ∀ s', s.Keeps device s' → stopped s') :
    Safely host named bound device stopped
      (registerDeviceWithName account workspaceId signingKey name)
      (fun registered s' => s.Keeps device s' ∧
        trim registered.deviceId = registered.deviceId) s := by
  refine holds_server (fun _ _ _ => trivial) (fun s' relied => stops s' relied.keeps) ?_
  intro s₁ registered relied₁ _ answered grows₁
  have keeps₁ := (relied₁.trans grows₁).keeps
  have isMint : registered.deviceId = host.mint s₁.rows.minted := by
    simp only [Rows.perform, Rows.registerDevice] at answered
    split at answered <;> cases answered
    rfl
  rw [isMint, ← Prog.bind_pure (server _)]
  refine holds_server (fun _ _ _ => trivial)
    (fun s' relied => stops s' (keeps₁.trans relied.keeps)) ?_
  intro s₂ renamed relied₂ _ answered₂ grows₂
  refine Prog.Holds.returns ⟨(keeps₁.trans relied₂.keeps).trans grows₂.keeps, ?_⟩
  rw [parse_mint (updateDeviceMetadata_ok answered₂), host.trim_mint]

structure PreparedSyncConfig.Of (prepared : PreparedSyncConfig) (rows : Rows) : Prop where
  unlocks : rows.Unlocks prepared.account.accountKeyId prepared.account.accountRootKey
  key : rows.KeyOf prepared.workspaceId prepared.workspaceKey
  device : trim prepared.deviceId = prepared.deviceId

variable (stops : ∀ s', s.Keeps device s' → stopped s')

include stops

theorem prepareNewWorkspace_safe {config : VaultConfig} :
    Safely host named bound device stopped (prepareNewWorkspace host entropy config)
      (fun prepared s' => s.Keeps device s' ∧ prepared.Of s'.rows) s := by
  refine Prog.Holds.andThen (prepareAccountKey_safe stops) ?_
  intro account s₁ ⟨keeps₁, unlocks⟩
  refine holds_server (fun _ relied _ => (unlocks.mono relied.rows).founded)
    (fun s' relied => stops s' (keeps₁.trans relied.keeps)) ?_
  intro s₂ workspace relied₂ _ answered grows₂
  have keeps₂ := keeps₁.trans (relied₂.trans grows₂).keeps
  cases answered
  refine Prog.Holds.andThen (putAccountWorkspaceMetadata_safe
    (unlocks.mono (relied₂.trans grows₂).rows) fun s' later => stops s' (keeps₂.trans later)) ?_
  intro _ s₃ ⟨later₃, isKey⟩
  have keeps₃ := keeps₂.trans later₃
  refine Prog.Holds.andThen (registerDeviceWithName_safe
    fun s' later => stops s' (keeps₃.trans later)) ?_
  intro registered s₄ ⟨keeps₄, isTrimmed⟩
  have unlocks₄ := unlocks.mono ((relied₂.trans grows₂).rows.trans (later₃.rows.trans keeps₄.rows))
  exact Prog.Holds.returns ⟨keeps₃.trans keeps₄, unlocks₄, isKey.mono keeps₄.rows, isTrimmed⟩

/-- The device is the reusable one whenever there is one and its key is there. -/
theorem prepareExistingWorkspace_safe {config : VaultConfig} {localVault : Option SyncVaultRecord} :
    Safely host named bound device stopped
      (prepareExistingWorkspace host entropy config localVault)
      (fun prepared s' => s.Keeps device s' ∧ prepared.Of s'.rows ∧
        prepared.workspaceId = trim config.remoteWorkspaceId ∧
        ∀ reusable, reusableDeviceIdForWorkspace prepared.workspaceId config.deviceId localVault =
            some reusable →
          ((s.clients device).keychain.deviceSigningKeys config.vaultId).isSome →
          prepared.deviceId = reusable) s := by
  refine Prog.Holds.andThen (prepareAccountKey_safe stops) ?_
  intro account s₁ ⟨keeps₁, unlocks⟩
  refine Prog.Holds.andThen (workspaceById_safe fun s' later => stops s' (keeps₁.trans later)) ?_
  intro workspace s₂ ⟨later₂, member, isId⟩
  have keeps₂ := keeps₁.trans later₂
  refine Prog.Holds.exceptThen (stops _ keeps₂) ?_
  intro key opened
  obtain ⟨blob, stored, isPlain⟩ := workspaceKeyFromAccount_ok opened
  have isKey : s₂.rows.KeyOf (trim config.remoteWorkspaceId) key :=
    ⟨workspace, member, isId, blob, stored, isPlain⟩
  refine holds_read (fun _ => rfl) (fun s' relied => stops s' (keeps₂.trans relied.keeps)) ?_
  intro s₃ relied₃ inv₃
  have keeps₃ := keeps₂.trans relied₃.keeps
  have unlocks₃ := unlocks.mono (later₂.rows.trans relied₃.rows)
  have sameSigning : (s₃.clients device).keychain.deviceSigningKeys config.vaultId =
      (s.clients device).keychain.deviceSigningKeys config.vaultId := by
    rw [keeps₃.client.deviceSigningKeys]
  dsimp only
  split
  · rename_i deviceId signingKey isReusable _
    refine Prog.Holds.returns ⟨keeps₃, ⟨unlocks₃, isKey.mono relied₃.rows, ?_⟩, rfl, ?_⟩
    · exact trim_reusable isReusable
    · intro reusable isReusable' _
      exact Option.some.inj (isReusable.symm.trans isReusable')
  · rename_i missing
    refine Prog.Holds.andThen (registerDeviceWithName_safe
      fun s' later => stops s' (keeps₃.trans later)) ?_
    intro registered s₄ ⟨keeps₄, isTrimmed⟩
    refine Prog.Holds.returns ⟨keeps₃.trans keeps₄, ⟨unlocks₃.mono keeps₄.rows,
      (isKey.mono relied₃.rows).mono keeps₄.rows, isTrimmed⟩, rfl, ?_⟩
    intro reusable isReusable hasSigning
    rw [← sameSigning] at hasSigning
    obtain ⟨signingKey, isSigning⟩ := isSome_iff_exists.mp hasSigning
    exact absurd isSigning (missing reusable signingKey isReusable)

/-! ## Listing, creating, renaming -/

theorem listAccountWorkspaces_safe {current recoveryPhrase : Option String} :
    Safely host named bound device stopped (listAccountWorkspaces host current recoveryPhrase)
      (fun _ s' => s.Keeps device s') s := by
  refine Prog.Holds.andThen (unlockExistingAccountKey_safe stops) ?_
  intro account s₁ ⟨keeps₁, _⟩
  cases account with
  | none => exact Prog.Holds.returns keeps₁
  | some account =>
    refine holds_server (fun _ _ _ => trivial)
      (fun s' relied => stops s' (keeps₁.trans relied.keeps)) ?_
    intro s₂ _ relied₂ _ _ grows₂
    have keeps₂ := keeps₁.trans (relied₂.trans grows₂).keeps
    exact Prog.Holds.ofExcept (fun _ _ => stops _ keeps₂) fun _ _ => keeps₂

theorem createAccountWorkspace_safe {request : CreateWorkspaceRequest} {current : Option String} :
    Safely host named bound device stopped (createAccountWorkspace host entropy request current)
      (fun _ s' => s.Keeps device s') s := by
  refine Prog.Holds.andThen (prepareAccountKey_safe stops) ?_
  intro account s₁ ⟨keeps₁, unlocks₁⟩
  refine Prog.Holds.andThen (rememberAccount_safe unlocks₁
    fun s' later => stops s' (keeps₁.trans later)) ?_
  intro _ s₂ later₂
  have keeps₂ := keeps₁.trans later₂
  refine holds_server (fun _ _ _ => trivial)
    (fun s' relied => stops s' (keeps₂.trans relied.keeps)) ?_
  intro s₃ _ relied₃ _ _ grows₃
  have keeps₃ := keeps₂.trans (relied₃.trans grows₃).keeps
  refine Prog.Holds.exceptThen (stops _ keeps₃) ?_
  intro name _
  have unlocks₃ := unlocks₁.mono (later₂.rows.trans (relied₃.trans grows₃).rows)
  refine holds_server (fun _ relied _ => (unlocks₃.mono relied.rows).founded)
    (fun s' relied => stops s' (keeps₃.trans relied.keeps)) ?_
  intro s₄ _ relied₄ _ answered grows₄
  have keeps₄ := keeps₃.trans (relied₄.trans grows₄).keeps
  cases answered
  have unlocks₄ := unlocks₃.mono (relied₄.trans grows₄).rows
  refine Prog.Holds.andThen (putAccountWorkspaceMetadata_safe unlocks₄
    fun s' later => stops s' (keeps₄.trans later)) ?_
  intro _ s₅ ⟨later₅, _⟩
  have keeps₅ := keeps₄.trans later₅
  refine Prog.Holds.andThen (workspaceById_safe fun s' later => stops s' (keeps₅.trans later)) ?_
  intro workspace s₆ ⟨later₆, _⟩
  have keeps₆ := keeps₅.trans later₆
  exact Prog.Holds.ofExcept (fun _ _ => stops _ keeps₆) fun _ _ => keeps₆

omit stops

/-- The workspace is named by the text its id is stored as. -/
def RenameWorkspaceRequest.Canonical (host : Host) (request : RenameWorkspaceRequest) : Prop :=
  ∀ id, host.parseUuid (trim request.workspaceId) = some id → id = trim request.workspaceId

theorem renameAccountWorkspace_safe {request : RenameWorkspaceRequest} {current : Option String}
    (canonical : named → request.Canonical host) (stops : ∀ s', s.Keeps device s' → stopped s') :
    Safely host named bound device stopped (renameAccountWorkspace host request current)
      (fun _ s' => s.Keeps device s') s := by
  refine Prog.Holds.exceptThen (stops s (World.Keeps.refl device s)) ?_
  intro workspaceId isId
  have isTrim : workspaceId = trim request.workspaceId := by
    simp only [normalizedWorkspaceId] at isId
    split at isId <;> cases isId
    rfl
  refine Prog.Holds.exceptThen (stops s (World.Keeps.refl device s)) ?_
  intro name _
  refine Prog.Holds.andThen (unlockExistingAccountKey_safe stops) ?_
  intro account s₁ ⟨keeps₁, unlocks₁⟩
  cases account with
  | none => exact Prog.Holds.throws (stops s₁ keeps₁)
  | some account =>
    dsimp only
    split
    · exact Prog.Holds.throws (stops s₁ keeps₁)
    · refine holds_server ?_ (fun s' relied => stops s' (keeps₁.trans relied.keeps)) ?_
      · intro s' relied _ isNamed id parsed positive
        rw [isTrim, trim_trim] at parsed
        exact seals_of_unlocks _ ((unlocks₁ account rfl).mono relied.rows)
          ((canonical isNamed id parsed).trans isTrim.symm) positive
      · intro s₂ _ relied₂ _ _ grows₂
        have keeps₂ := keeps₁.trans (relied₂.trans grows₂).keeps
        exact Prog.Holds.ofExcept (fun _ _ => stops _ keeps₂) fun _ _ => keeps₂

end Programs

end Kuku.Account
